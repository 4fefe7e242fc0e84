import Jolt.Address
import Jolt.Golden.Run
import Jolt.Journal
import Jolt.Layout
import Jolt.Options
import Jolt.SessionId
import Jolt.Settings
import Jolt.Token.Scan
import Jolt.Tree.Outline

/-!
# Commands

A command takes arguments and works on the files of a folder. `Command.execute` says what it prints and logs, whether it
fails, and what is changed after it.
-/

namespace Jolt

/-- Where commands work: files and journals, what is set around them, how many sessions there have been and what each
is called, and the time if there is a clock. -/
structure Workplace where
  library : Library
  home : Option Text
  settingsFile : Option Text
  sessions : Nat
  sessionId : Nat → Text
  now : Option Instant

namespace Workplace

/-- The place where nothing has been done yet. -/
def ofSurroundings (around : Surroundings) : Workplace :=
  ⟨.ofFolder around.folder, around.home, around.settingsFile, 0, SessionId.nth, none⟩

/-- The files. -/
def folder (work : Workplace) : Folder :=
  work.library.folder

/-- What is around a command. -/
def around (work : Workplace) : Surroundings :=
  ⟨work.folder, work.home, work.settingsFile⟩

end Workplace

/-- The commands. -/
inductive Command where
  | run
  | repl
  | serve
  | history
  | tokens
  | parse
  | check
  | fmt
  | test
deriving DecidableEq

namespace Command

/-- The commands with their names. -/
def named : List (Text × Command) :=
  [(utf8 "run", run), (utf8 "repl", repl), (utf8 "serve", serve), (utf8 "history", history), (utf8 "tokens", tokens),
    (utf8 "parse", parse), (utf8 "check", check), (utf8 "fmt", fmt), (utf8 "test", test)]

/-- The command with a name. -/
def ofName? (name : Text) : Option Command :=
  named.lookup name

/-- The name of a command. -/
def name (c : Command) : Text :=
  ((named.find? (·.2 = c)).map (·.1)).getD []

/-- The option that names a settings file. -/
def configOption : OptionSpec :=
  ⟨"config", .text, "configuration file"⟩

/-- How many entries are shown if nothing else is said. -/
def defaultCount : Int := 20

/-- The options of a command, by name. -/
def options : Command → List OptionSpec
  | run | tokens | parse | check => []
  | fmt => [⟨"w", .switch, "write result to the file instead of stdout"⟩]
  | repl => [configOption]
  | serve => [⟨"addr", .text, "listen address (overrides server.addr)"⟩, configOption]
  | history => [configOption, ⟨"n", .integer defaultCount, "number of entries to show"⟩,
      ⟨"session", .text, "show one session"⟩]
  | test => [⟨"failfast", .switch, "stop at the first failure"⟩, ⟨"json", .switch, "report as JSON"⟩,
      ⟨"run", .text, "only run programs whose name contains this text"⟩, ⟨"v", .switch, "verbose output"⟩]

/-- What a command is given. -/
structure Request where
  arguments : List Text
  input : Text
  /-- Whether somebody sits at a terminal. -/
  interactive : Bool
  /-- Whether the command is told to stop before it starts. -/
  cancelled : Bool
  /-- How a duration is shown. -/
  showDuration : Int → Text
  /-- What golden programs are judged and timed with. -/
  instruments : Golden.Instruments

/-- Why a command did not succeed. -/
inductive Trouble where
  | usage (flaw : OptionFlaw)
  | failure (f : Failure)
deriving DecidableEq

/-- A trouble as a failure. -/
def Trouble.toFailure : Trouble → Failure
  | usage flaw => .message flaw.text
  | failure f => f

/-- What a command leaves behind beside the changes at its place. -/
structure Effect where
  output : Text
  errors : Text
  log : List Text
  trouble : Option Trouble

namespace Effect

/-- Nothing but output. -/
def printing (output : Text) : Effect :=
  ⟨output, [], [], none⟩

/-- Nothing but a failure. -/
def failing (f : Failure) : Effect :=
  ⟨[], [], [], some (.failure f)⟩

/-- A failure that is only a message. -/
def refusing (message : Text) : Effect :=
  failing (.message message)

end Effect

/-- What a command does at a place. -/
abbrev Action := Workplace → Effect × Workplace

/-- An action that changes nothing. -/
def looking (look : Workplace → Except Failure Text) : Action := fun work =>
  match look work with
  | .ok output => (.printing output, work)
  | .error f => (.failing f, work)

/-! ## Commands on one source -/

/-- The one file that a command expects. -/
def onlyFile (c : Command) (operands : List Text) : Except Failure Text :=
  match operands with
  | [file] => .ok file
  | _ => .error (.message (c.name ++ utf8 ": expected one file, got " ++ Text.ofNat operands.length
      ++ utf8 " arguments"))

/-- The content of a source file. -/
def readSource (folder : Folder) (file : Text) : Except Failure Text :=
  match folder.read file with
  | .ok source => .ok source
  | .error e => .error (.during (utf8 "could not read file") (.message e))

/-- The only file and its content. -/
def source (c : Command) (o : Options) (work : Workplace) : Except Failure (Text × Text) := do
  let file ← c.onlyFile o.operands
  .ok (file, ← readSource work.folder file)

/-- The program in a source. -/
def parsed (file source : Text) : Except Failure Program :=
  (Jolt.parse source file).mapError .diagnostic

/-- Runs a program and prints its outputs. -/
def runFile (o : Options) : Action := looking fun work => do
  let (file, source) ← run.source o work
  match (Variables.empty.emit source file).1 with
  | .error d => .error (.diagnostic d)
  | .ok results => .ok (Text.unlines ((results.filter Result.isOutput).map fun r => r.unwrap.text))

/-- A token with its place. -/
def tokenLine (t : Token) : Text :=
  Text.ofInt t.position.line ++ utf8 ":" ++ Text.ofInt t.position.column ++ utf8 "\t" ++ t.listing

/-- Prints the tokens of a source. -/
def showTokens (o : Options) : Action := looking fun work => do
  let (_, source) ← tokens.source o work
  .ok (Text.unlines ((Token.scan source).map tokenLine))

/-- Prints the tree of a source. -/
def showTree (o : Options) : Action := looking fun work => do
  let (file, source) ← parse.source o work
  let program ← parsed file source
  .ok program.outline

/-- Says that a source is in order. -/
def checkFile (o : Options) : Action := looking fun work => do
  let (file, source) ← check.source o work
  let _ ← parsed file source
  .ok (file ++ utf8 ": syntax is valid\n")

/-- Puts a file in order, if it is not. -/
def tidy (file source laidOut : Text) : Action := fun work =>
  match work.folder.find file with
  | .ok (.file place _) =>
    if laidOut = source then (.printing [], work)
    else (.printing (file ++ utf8 ": formatted\n"),
      { work with library := { work.library with folder := work.folder.write place laidOut } })
  | _ => (.printing [], work)

/-- Lays a source out, in place or as output. -/
def formatFile (o : Options) : Action := fun work =>
  match (do
    let (file, source) ← fmt.source o work
    let program ← parsed file source
    .ok (file, source, program.layout) : Except Failure (Text × Text × Text)) with
  | .error f => (.failing f, work)
  | .ok (file, source, laidOut) =>
    if o.switch "w" then tidy file source laidOut work else (.printing laidOut, work)

/-! ## Golden programs -/

/-- Runs the golden programs of a directory. -/
def testAll (r : Request) (o : Options) : Action := fun work =>
  let path := o.operands.headD (utf8 ".")
  match Golden.discover work.folder path with
  | .error f => (.failing f, work)
  | .ok [] => (.refusing (utf8 "no " ++ Golden.sourceEnding ++ utf8 " programs found in " ++ path), work)
  | .ok cases =>
    let style : Golden.ReportStyle := ⟨o.switch "json", o.switch "v", r.interactive, r.showDuration⟩
    let p := Golden.Progress.run r.instruments style ⟨o.text "run", o.switch "failfast"⟩ work.folder cases .start
    let trouble := if 0 < p.tally.failed then
        some (.failure (.message (Text.ofInt p.tally.failed ++ utf8 " of " ++ Text.ofInt p.tally.total
          ++ utf8 " programs failed")))
      else none
    (⟨p.output, [], [], trouble⟩, work)

/-! ## Dialogue, journal and service -/

/-- A journal that can be written to, the place after it was opened, and what is logged if it could not be. -/
def openJournal (s : Settings) (cancelled : Bool) (work : Workplace) : Option (List Text) × List Text × Workplace :=
  let path := s.historyPath work.around.home?
  if path.isEmpty then (none, [], work)
  else match work.library.openJournal path cancelled with
    | (.ok place, library) => (some place, [], { work with library := library })
    | (.error f, library) => (none, [utf8 "history disabled: " ++ f.text], { work with library := library })

/-- Records utterances in the journal at a place. -/
def record (place : List Text) (utterances : List Utterance) (work : Workplace) : Workplace :=
  let journal := utterances.foldl (fun j u => j.record u work.now) (work.library.journal place)
  { work with library := work.library.put place journal }

/-- A dialogue that is about to start: how it is held, where it is recorded, and what has been logged. -/
structure Opening where
  dialogue : Dialogue.Options
  place? : Option (List Text)
  log : List Text

/-- Prepares a dialogue in a new session. -/
def openDialogue (r : Request) (o : Options) (work : Workplace) : Except Failure (Opening × Workplace) := do
  let s ← Settings.load work.around (o.text "config")
  let (place?, log, work) := openJournal s r.cancelled work
  let work := { work with sessions := work.sessions + 1 }
  let recorder : Recorder := if place?.isSome then .keeping else .off
  .ok (⟨⟨s.prompt, s.showBanner, r.interactive, work.sessionId work.sessions, recorder⟩, place?, log⟩, work)

/-- Holds a dialogue in a new session. -/
def converse (r : Request) (o : Options) : Action := fun work =>
  match openDialogue r o work with
  | .error f => (.failing f, work)
  | .ok (⟨dialogue, place?, log⟩, work) =>
    let t := if r.cancelled then Dialogue.cancelledRun dialogue else Dialogue.run dialogue r.input .exhausted
    (⟨t.output, [], log ++ t.log, t.failure.map .failure⟩,
      match place? with
      | some place => record place t.utterances work
      | none => work)

/-- Announces the service and says why it cannot listen, if so. -/
def startService (r : Request) (o : Options) : Action := fun work =>
  match Settings.load work.around (o.text "config") with
  | .error f => (.failing f, work)
  | .ok s =>
    let address := if (o.text "addr").isEmpty then s.addr else o.text "addr"
    let (_, log, work) := openJournal s r.cancelled work
    let log := log ++ [utf8 "jolt: serving REPL sessions on ws://" ++ address ++ utf8 "/repl",
      utf8 "server: listening on " ++ address]
    let flaw? := if r.cancelled then none else Address.flaw? address
    (⟨[], [], log, flaw?.map fun flaw =>
      .failure (.during (utf8 "server") (.message (utf8 "listen tcp: " ++ flaw.text)))⟩, work)

/-- The entries that are asked for. -/
def entries (o : Options) (journal : Journal) : List Entry :=
  if (o.text "session").isEmpty then journal.recent (o.integer "n" defaultCount)
  else journal.ofSession (o.text "session")

/-- Lists entries of the journal. -/
def listHistory (r : Request) (o : Options) : Action := fun work =>
  match Settings.load work.around (o.text "config") with
  | .error f => (.failing f, work)
  | .ok s =>
    let path := s.historyPath work.around.home?
    if path.isEmpty then (.refusing (utf8 "history is disabled in the configuration"), work)
    else match work.library.openJournal path r.cancelled with
      | (.error f, library) => (.failing f, { work with library := library })
      | (.ok place, library) =>
        let shown := (entries o (library.journal place)).map fun e => e.line (e.age work.now)
        (.printing (Text.unlines (if shown.isEmpty then [utf8 "no history"] else shown)),
          { work with library := library })

/-- The path of the journal that a command works with. -/
def journalPath? (c : Command) (arguments : List Text) (work : Workplace) : Option Text := do
  if !c.options.any (·.name = configOption.name) then none
  let o ← (Options.read c.options arguments).toOption
  let s ← (Settings.load work.around (o.text "config")).toOption
  let path := s.historyPath work.around.home?
  if path.isEmpty then none else some path

/-! ## All commands -/

/-- What a command does with its options. -/
def perform (c : Command) (r : Request) (o : Options) : Action :=
  match c with
  | run => runFile o
  | repl => converse r o
  | serve => startService r o
  | history => listHistory r o
  | tokens => showTokens o
  | parse => showTree o
  | check => checkFile o
  | fmt => formatFile o
  | test => testAll r o

/-- What is said about arguments that cannot be taken. -/
def complain (c : Command) (flaw : OptionFlaw) : Effect :=
  let message := if flaw = .help then [] else flaw.text ++ utf8 "\n"
  ⟨[], message ++ Options.usage c.name c.options, [], some (.usage flaw)⟩

/-- Executes a command. -/
def execute (c : Command) (r : Request) : Action := fun work =>
  match Options.read c.options r.arguments with
  | .error flaw => (c.complain flaw, work)
  | .ok o => c.perform r o work

end Command

end Jolt
