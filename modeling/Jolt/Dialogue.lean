import Jolt.Failure
import Jolt.Text.Blank
import Jolt.Variables

/-!
# Dialogues

A dialogue reads a source a line at a time, runs each over the same variables and prints what it gives. Blank lines are
skipped and the line `exit` ends it. An interactive dialogue shows a banner and prompts.
-/

namespace Jolt

/-- A source that was entered in a session, and whether it failed to parse. -/
structure Utterance where
  session : Text
  source : Text
  failed : Bool
deriving DecidableEq

/-- What happens to utterances: nothing, or each is noted, and keeping it may fail for a reason. -/
inductive Recorder where
  | off
  | on (fault? : Utterance → Option Text)

namespace Recorder

/-- A recorder that keeps every utterance. -/
def keeping : Recorder :=
  on fun _ => none

/-- What is noted of an utterance. -/
def note (recorder : Recorder) (u : Utterance) : List Utterance :=
  match recorder with
  | off => []
  | on _ => [u]

/-- What is logged when an utterance is not kept. -/
def complaint (recorder : Recorder) (u : Utterance) : List Text :=
  match recorder with
  | off => []
  | on fault? => (fault? u).toList

end Recorder

/-- A log entry ends with a line feed. -/
def logEntry (t : Text) : Text :=
  if t.getLast? = some Byte.lineFeed then t else t ++ utf8 "\n"

namespace Dialogue

/-- The longest line that can be read, its line feed included. -/
def lineLimit : Nat := 65536

/-- How the input of a dialogue ends: in the ordinary way, with an error of the reader, or by a cancellation while the
dialogue waits for a line that does not come. -/
inductive Ending where
  | exhausted
  | broken (reason : Text)
  | cancelled
deriving DecidableEq

/-- What a dialogue is asked to do. -/
structure Options where
  prompt : Text
  banner : Bool
  interactive : Bool
  session : Text
  recorder : Recorder

/-- What a dialogue left behind. -/
structure Transcript where
  output : Text
  utterances : List Utterance
  log : List Text
  failure : Option Failure

/-- What is shown first. -/
def bannerText : Text :=
  utf8 "Jolt REPL v0.1 | type 'exit' to quit"

/-- What stands before each line that is read. -/
def Options.promptText (o : Options) : Text :=
  if o.interactive then o.prompt else []

/-- A line without the carriage return at its end. -/
def dropReturn (line : Text) : Text :=
  if line.getLast? = some Byte.carriageReturn then line.dropLast else line

/-- The lines that are read, and whether a line over the limit stopped the reading. A last line without line feed
counts unless it is empty or the reader waits for its end. -/
def readLines (waiting : Bool) : List Text → List Text × Bool
  | [] => ([], false)
  | line :: rest =>
    if lineLimit ≤ line.length then ([], true)
    else if rest.isEmpty && (waiting || line.isEmpty) then ([], false)
    else
      let (more, long) := readLines waiting rest
      (dropReturn line :: more, long)

/-- The lines of the results of a source, or its diagnostic. -/
def shown : Except Diagnostic (List Result) → List Text
  | .ok results => results.map fun r => r.unwrap.text
  | .error d => [d.render]

/-- What is left after the lines: nothing more to say, an error, or a wait that was cancelled. -/
def Options.finish (o : Options) (ending : Ending) (long : Bool) : Transcript :=
  if long then ⟨o.promptText, [], [], some (.message (utf8 "bufio.Scanner: token too long"))⟩
  else match ending with
    | .exhausted => ⟨o.promptText, [], [], none⟩
    | .broken reason => ⟨o.promptText, [], [], some (.message reason)⟩
    | .cancelled => ⟨o.promptText ++ (if o.interactive then utf8 "\n" else []), [], [], none⟩

/-- What a line does in a dialogue. -/
inductive Turn where
  | skip
  | leave
  | run (output : Text) (u : Utterance) (vars : Variables)

/-- The turn of a line over variables. -/
def Options.turn (o : Options) (line : Text) (vars : Variables) : Turn :=
  let word := Text.trim line
  if word.isEmpty then .skip
  else if word = utf8 "exit" then .leave
  else
    let (outcome, vars) := vars.emit line []
    .run (Text.unlines (shown outcome)) ⟨o.session, line, outcome.toOption.isNone⟩ vars

/-- The dialogue over lines, from variables on. -/
def converse (o : Options) (last : Transcript) : List Text → Variables → Transcript
  | [], _ => last
  | line :: rest, vars =>
    match o.turn line vars with
    | .skip =>
      let t := converse o last rest vars
      { t with output := o.promptText ++ t.output }
    | .leave => ⟨o.promptText, [], [], none⟩
    | .run output u vars =>
      let t := converse o last rest vars
      { t with
        output := o.promptText ++ output ++ t.output
        utterances := o.recorder.note u ++ t.utterances
        log := (o.recorder.complaint u).map (utf8 "repl: " ++ ·) ++ t.log }

/-- What is shown before the first prompt. -/
def Options.opening (o : Options) : Text :=
  if o.interactive && o.banner then utf8 "\n" ++ bannerText ++ utf8 "\n\n" else []

/-- A whole dialogue over an input. -/
def run (o : Options) (input : Text) (ending : Ending) : Transcript :=
  let (lines, long) := readLines (ending = .cancelled) input.lines
  let t := converse o (o.finish ending long) lines .empty
  { t with output := o.opening ++ t.output }

/-- A dialogue that is cancelled before it starts. -/
def cancelledRun (o : Options) : Transcript :=
  ⟨o.opening, [], [], none⟩

end Dialogue

end Jolt
