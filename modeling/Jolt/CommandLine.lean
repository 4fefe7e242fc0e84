import Jolt.Command

/-!
# The command line

The first argument names a command, or it is a source file to run. `CommandLine.run` gives what a whole invocation prints
and the code it exits with.
-/

namespace Jolt.CommandLine

/-- What an invocation leaves behind. -/
structure Finish where
  exit : Nat
  output : Text
  errors : Text

/-- What the command line offers. -/
def usage : Text :=
  Text.unlines ([
    "Jolt - a small scripting language",
    "",
    "Usage:",
    "  jolt <file.jolt>                 Run a Jolt program",
    "  jolt run <file.jolt>             Run a Jolt program",
    "  jolt repl [-config FILE]         Start interactive REPL",
    "  jolt serve [-addr ADDR]          Serve REPL sessions over WebSocket",
    "  jolt history [-n N] [-session ID] List recorded REPL input",
    "  jolt check <file.jolt>           Check syntax without running",
    "  jolt fmt [-w] <file.jolt>        Format Jolt code",
    "  jolt test [-v] [-json] [dir]     Run *.jolt programs against *.out files",
    "  jolt tokens <file.jolt>          Print the token stream",
    "  jolt parse <file.jolt>           Print the syntax tree",
    "  jolt version                     Show version information",
    "",
    "Configuration is read from ./jolt.yaml or the file named by $JOLT_CONFIG."].map utf8)

/-- The version. -/
def version : Text :=
  utf8 "Jolt v0.1.0\nBuild Date: unknown\n"

/-- A log message as it is printed. -/
def logged (message : Text) : Text :=
  logEntry (utf8 "jolt: " ++ message)

/-- How a trouble ends an invocation: the exit code and the last words. A diagnostic stands alone. -/
def lastWords : Option Command.Trouble → Nat × Text
  | none => (0, [])
  | some (.usage .help) => (2, [])
  | some trouble =>
    let f := trouble.toFailure
    (1, if f.isSyntax then f.text ++ utf8 "\n" else logged (utf8 "Error: " ++ f.text))

/-- The end of a command. -/
def finish (e : Command.Effect) : Finish :=
  let (exit, words) := lastWords e.trouble
  ⟨exit, e.output, e.errors ++ e.log.flatMap logged ++ words⟩

/-- The arguments that ask for help. -/
def helpWords : List Text :=
  ["help", "-h", "--help", "-help"].map utf8

/-- The arguments that ask for the version. -/
def versionWords : List Text :=
  ["version", "-v", "--version", "-version"].map utf8

/-- The command of an invocation and its arguments. A file is run. -/
def command? (folder : Folder) (name : Text) (rest : List Text) : Option (Command × List Text) :=
  match Command.ofName? name with
  | some c => some (c, rest)
  | none => if name.endsIn Golden.sourceEnding || folder.exists? name then some (.run, name :: rest) else none

/-- A whole invocation. -/
def run (r : Command.Request) (work : Workplace) : Finish × Workplace :=
  match r.arguments with
  | [] => (⟨0, usage, []⟩, work)
  | name :: rest =>
    if helpWords.contains name then (⟨0, usage, []⟩, work)
    else if versionWords.contains name then (⟨0, version, []⟩, work)
    else match command? work.folder name rest with
      | none => (⟨2, usage, utf8 "Unknown command: " ++ name ++ utf8 "\n\n"⟩, work)
      | some (c, arguments) =>
        let (effect, work) := c.execute { r with arguments := arguments } work
        (finish effect, work)

end Jolt.CommandLine
