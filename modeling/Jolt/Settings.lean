import Jolt.Failure
import Jolt.Folder
import Jolt.Yaml.Record

/-!
# Settings

What can be set in a file: the prompt, whether the dialogue greets, where the journal is kept, the address to listen on
and the longest message that is read. Every setting has a default.

`Settings.shape` says what a document of settings holds; `Settings.load` finds the file.
-/

namespace Jolt

/-- The settings. An absent or empty one has no effect before `Settings.complete`. -/
structure Settings where
  /-- The file that they were read from, empty if there was none. -/
  path : Text
  prompt : Text
  banner : Option Bool
  /-- Where the journal is kept, empty for nowhere. -/
  history : Text
  addr : Text
  readLimit : Int
deriving DecidableEq

/-- What is around a program: the folder it works in, the home directory and the settings file that are set for it. -/
structure Surroundings where
  folder : Folder
  home : Option Text
  settingsFile : Option Text

/-- The home directory. An empty one is none. -/
def Surroundings.home? (around : Surroundings) : Option Text :=
  around.home.filter (!·.isEmpty)

namespace Settings

/-- No setting. -/
def blank : Settings :=
  ⟨[], [], none, [], [], 0⟩

/-- Where the journal is kept if nothing else is said. -/
def defaultHistory : Option Text → Text
  | some home => Path.join [home, utf8 ".jolt", utf8 "history.db"]
  | none => utf8 "off"

/-- Fills in defaults, and turns the journal off where that is said. -/
def complete (home? : Option Text) (s : Settings) : Settings :=
  let history := if s.history.isEmpty then defaultHistory home? else s.history
  { s with
    prompt := if s.prompt.isEmpty then utf8 "> " else s.prompt
    banner := some (s.banner.getD true)
    history := if history = utf8 "off" then [] else history
    addr := if s.addr.isEmpty then utf8 ":7007" else s.addr
    readLimit := if s.readLimit ≤ 0 then 65536 else s.readLimit }

/-- The settings without a file. -/
def standard (home? : Option Text) : Settings :=
  complete home? blank

/-- Whether the dialogue greets. -/
def showBanner (s : Settings) : Bool :=
  s.banner.getD true

/-- The path of the journal, where a tilde stands for the home directory. -/
def historyPath (home? : Option Text) (s : Settings) : Text :=
  match home?, s.history with
  | some home, 126 :: Byte.slash :: rest => Path.join [home, rest]
  | _, p => p

/-! ## Reading a document -/

open Yaml (Shape)

/-- The settings of the dialogue. -/
def dialogueShape : Shape Settings :=
  .record "config.REPL" [
    ("prompt", .text fun t s => { s with prompt := t }),
    ("banner", .truth fun b s => { s with banner := b }),
    ("history", .text fun t s => { s with history := t })]

/-- The settings of the service. -/
def serviceShape : Shape Settings :=
  .record "config.Server" [
    ("addr", .text fun t s => { s with addr := t }),
    ("read_limit", .integer fun n s => { s with readLimit := n })]

/-- All settings. -/
def shape : Shape Settings :=
  .record "config.Config" [("repl", dialogueShape), ("server", serviceShape)]

/-- The settings in the content of a file, as far as they are set. -/
def ofText (content : Text) : Except Text Settings :=
  match Yaml.document content with
  | .error p => .error p.text
  | .ok none => .error (utf8 "EOF")
  | .ok (some root) => root.fill shape blank

/-! ## Finding the file -/

/-- The file that holds the settings where none is named. -/
def defaultFile : Text :=
  utf8 "jolt.yaml"

/-- Reads the settings from a file. -/
def readFile (around : Surroundings) (path : Text) : Except Failure Settings :=
  let parsing := utf8 "config: parse " ++ path
  match around.folder.find path with
  | .error o => .error (.during (utf8 "config") (.message (utf8 "open " ++ path ++ utf8 ": " ++ o.text)))
  | .ok (.directory _) =>
    .error (.during parsing (.message (utf8 "yaml: input error: read " ++ path ++ utf8 ": is a directory")))
  | .ok (.file _ content) =>
    match ofText content with
    | .error t => .error (.during parsing (.message t))
    | .ok s => .ok (complete around.home? { s with path := path })

/-- Loads the settings: from the file that is named, else from the one that the surroundings say, else from the default
one, which may be missing. -/
def load (around : Surroundings) (path : Text) : Except Failure Settings :=
  let named := if path.isEmpty then around.settingsFile.getD [] else path
  if !named.isEmpty then readFile around named
  else match around.folder.find defaultFile with
    | .error .missing => .ok (standard around.home?)
    | _ => readFile around defaultFile

end Settings

end Jolt
