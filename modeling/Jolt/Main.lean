import Std.Time.DateTime
import Jolt.CommandLine
import Jolt.Journal.Rows

/-!
# The program

The files that an invocation can touch are read into a folder, the command line is run on it, and what has changed is
written back. A dialogue at a terminal goes line by line. Golden programs are run without a clock, so they take no time.
-/

namespace Jolt.Main

/-- The bytes of a text. -/
def bytesOf (t : Text) : ByteArray :=
  ⟨t.toArray⟩

/-- A path as the file system takes it. -/
def fileName (place : List Text) : String :=
  (Text.toString? (Path.ofComponents place)).getD ""

/-- Whether a directory lies at a place. -/
def isDirectory (place : List Text) : IO Bool := do
  if place = Folder.root then return true
  let here ← IO.currentDir
  (here / fileName place).isDir

/-- The content of the file at a place. -/
def content? (place : List Text) : IO (Option Text) := do
  match ← (IO.FS.readBinFile (fileName place)).toBaseIO with
  | .ok bytes => return some bytes.toList
  | .error _ => return none

/-- Reads what lies at a path and on the way to it. -/
def load (path : Text) (folder : Folder) : IO Folder := do
  let mut folder := folder
  for place in Folder.ancestry (Folder.place path) do
    if ← isDirectory place then folder := folder.addDirectory place
    else match ← content? place with
      | some content => folder := folder.write place content
      | none => return folder
  return folder

/-- Reads the programs and golden files below a path. -/
partial def loadPrograms (path : Text) (folder : Folder) : IO Folder := do
  let mut folder ← load path folder
  let here ← IO.currentDir
  for entry in ← (here / fileName (Folder.place path)).readDir do
    let name := utf8 entry.fileName
    let inner := Path.join [path, name]
    if ← isDirectory (Folder.place inner) then folder ← loadPrograms inner folder
    else if Text.endsIn name Golden.sourceEnding || Text.endsIn name Golden.goldenEnding then
      folder ← load inner folder
  return folder

/-- The paths that arguments can name. -/
def namedPaths (arguments : List Text) : List Text :=
  arguments.flatMap fun a => a :: (Options.cutValue a).2.toList

/-- Reads everything that arguments can name. -/
def loadNamed (arguments paths : List Text) : IO Folder := do
  let mut folder := Folder.empty
  for path in paths.filter (!·.isEmpty) do
    folder ← load path folder
  if arguments.head? = some Command.test.name then
    for path in utf8 "." :: arguments.drop 1 do
      if ← isDirectory (Folder.place path) then folder ← loadPrograms path folder
  return folder

/-- Reads the journal that an invocation works with. -/
def loadJournal (place : List Text) (library : Library) : IO Library := do
  let folder ← load (Path.ofComponents place.dropLast) library.folder
  let library := { library with folder := folder }
  match ← content? place with
  | none => return library
  | some content =>
    match Journal.ofText? content with
    | some journal => return library.put place journal
    | none => return { library with folder := library.folder.write place content }

/-- Writes what has changed. -/
def save (before after : Library) : IO Unit := do
  for (place, content) in after.folder.files do
    if before.folder.content? place ≠ some content then
      IO.FS.writeBinFile (fileName place) (bytesOf content)
  for (place, journal) in after.journals do
    if before.journals.lookup place ≠ some journal then
      if 1 < place.length then IO.FS.createDirAll (fileName place.dropLast)
      IO.FS.writeBinFile (fileName place) (bytesOf journal.toText)

/-- Everything that can be read. -/
partial def readAll (input : IO.FS.Stream) (done : ByteArray) : IO ByteArray := do
  let part ← input.read 65536
  if part.isEmpty then return done
  readAll input (done ++ part)

/-- Prints a text. -/
def print (stream : IO.FS.Stream) (t : Text) : IO Unit := do
  stream.write (bytesOf t)
  stream.flush

/-- Holds a dialogue line by line; gives what was said. -/
partial def talk (o : Dialogue.Options) (vars : Variables) (said : List Utterance) : IO (List Utterance) := do
  let output ← IO.getStdout
  print output o.promptText
  let line ← (← IO.getStdin).getLine
  if line.isEmpty then return said
  match o.turn (Dialogue.dropReturn (Golden.dropLastFeed (utf8 line))) vars with
  | .skip => talk o vars said
  | .leave => return said
  | .run text u vars =>
    print output text
    talk o vars (said ++ o.recorder.note u)

/-- A dialogue at a terminal. -/
def converse (r : Command.Request) (o : Options) (work : Workplace) : IO (Command.Effect × Workplace) := do
  match Command.openDialogue r o work with
  | .error f => return (.failing f, work)
  | .ok (opening, work) =>
    print (← IO.getStderr) (opening.log.flatMap CommandLine.logged)
    print (← IO.getStdout) opening.dialogue.opening
    let said ← talk opening.dialogue .empty []
    let work := match opening.place? with
      | some place => Command.record place said work
      | none => work
    return (.printing [], work)

/-- An invocation. The service is announced, but there is no network to listen on. -/
def invoke (r : Command.Request) (work : Workplace) : IO (CommandLine.Finish × Workplace) := do
  match r.arguments with
  | [] => return CommandLine.run r work
  | name :: rest =>
    match Command.ofName? name, Options.read Command.repl.options rest with
    | some .repl, .ok o =>
      if r.interactive then
        let (effect, work) ← converse r o work
        return (CommandLine.finish effect, work)
      else return CommandLine.run r work
    | some .serve, _ =>
      let (effect, work) := Command.serve.execute { r with arguments := rest } work
      let missing := Failure.during (utf8 "server") (.message (utf8 "no network to listen on"))
      return (CommandLine.finish { effect with trouble := effect.trouble.getD (.failure missing) }, work)
    | _, _ => return CommandLine.run r work

/-- The time of the clock. -/
def now : IO Instant := do
  let t ← Std.Time.Timestamp.now
  let nanos := t.toNanosecondsSinceUnixEpoch.val
  return ⟨nanos / 1000000000, (nanos % 1000000000).toNat⟩

end Jolt.Main

open Jolt in
/-- Runs the program on its arguments. -/
def main (arguments : List String) : IO UInt32 := do
  let arguments := arguments.map utf8
  let home := (← IO.getEnv "HOME").map utf8
  let settingsFile := (← IO.getEnv "JOLT_CONFIG").map utf8
  let paths := Settings.defaultFile :: settingsFile.toList ++ Main.namedPaths arguments
  let folder ← Main.loadNamed arguments paths
  let id := SessionId.ofBytes (← IO.getRandomBytes 16).toList
  let now ← Main.now
  let work : Workplace :=
    { Workplace.ofSurroundings ⟨folder, home, settingsFile⟩ with sessionId := fun _ => id, now := some now }
  let journal? := arguments.head?.bind fun name =>
    (Command.ofName? name).bind fun c => c.journalPath? (arguments.drop 1) work
  let library ← match journal? with
    | some path => Main.loadJournal (Folder.place path) work.library
    | none => pure work.library
  let input ← IO.getStdin
  let interactive := (← input.isTty) && (← (← IO.getStdout).isTty)
  let piped := !interactive && arguments.head? = some Command.repl.name
  let source ← if piped then Main.readAll input .empty else pure .empty
  let request : Command.Request :=
    ⟨arguments, source.toList, interactive, false, Duration.text, ⟨Golden.lineDiff, fun _ => 0⟩⟩
  let (finish, work) ← Main.invoke request { work with library := library }
  Main.print (← IO.getStdout) finish.output
  Main.print (← IO.getStderr) finish.errors
  Main.save library work.library
  return finish.exit.toUInt32
