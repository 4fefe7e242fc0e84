import Jolt.Failure
import Jolt.Folder
import Jolt.Variables

/-!
# Golden programs

A golden program is a source beside a file with the exact text it prints. `Golden.execute` is what a source prints: every
output on a line, or its diagnostic. `Golden.judge` compares that with the golden text, line by line; how differences are
told and what time it is come from outside (`Golden.Instruments`).
-/

namespace Jolt.Golden

/-- A program and the file with its expected output, which is empty where there is none. -/
structure Case where
  name : Text
  source : Text
  golden : Text
deriving DecidableEq

/-- What became of a case. -/
structure Outcome where
  name : Text
  file : Text
  passed : Bool
  failed : Bool
  skipped : Bool
  /-- In nanoseconds. -/
  duration : Int
  error : Option Text
  message : Text
deriving DecidableEq

/-- The ending of a program's file. -/
def sourceEnding : Text := utf8 ".jolt"

/-- The ending of a golden file. -/
def goldenEnding : Text := utf8 ".out"

/-- What a source prints: the values of its outputs, or its diagnostic. -/
def execute (source : Text) : Text :=
  match (Variables.empty.emit source []).1 with
  | .ok results => Text.unlines ((results.filter Result.isOutput).map fun r => r.unwrap.text)
  | .error d => Text.unlines [d.render]

/-- Carriage returns before line feeds do not count. -/
def dropReturns : Text → Text
  | Byte.carriageReturn :: Byte.lineFeed :: r => Byte.lineFeed :: dropReturns r
  | c :: r => c :: dropReturns r
  | [] => []

/-- Nor does one line feed at the end. -/
def dropLastFeed (t : Text) : Text :=
  if t.getLast? = some Byte.lineFeed then t.dropLast else t

/-- The lines that are compared. No text has no lines. -/
def comparedLines (t : Text) : List Text :=
  let t := dropLastFeed (dropReturns t)
  if t.isEmpty then [] else t.lines

/-- What a run of golden programs takes from outside. -/
structure Instruments where
  /-- How the lines that are expected and those that are there differ, in a text that is empty if they do not. -/
  diff : List Text → List Text → Text
  /-- The time of a reading of the clock, in nanoseconds. The readings of a run are numbered from zero. -/
  clock : Nat → Int

/-- The time from one reading of the clock to another. -/
def Instruments.elapsed (tools : Instruments) (start stop : Nat) : Int :=
  tools.clock stop - tools.clock start

/-- An outcome of which nothing is known yet. -/
def Case.pending (c : Case) : Outcome where
  name := c.name
  file := c.source
  passed := false
  failed := false
  skipped := false
  duration := 0
  error := none
  message := []

/-- What is said of output that is not as expected. Line feeds at the end of the differences are dropped. -/
def mismatch (differences : Text) : Text :=
  utf8 "output mismatch (-want +got):\n" ++ (differences.reverse.dropWhile (· = Byte.lineFeed)).reverse

/-- The outcome of a program text beside its golden text. -/
def judge (diff : List Text → List Text → Text) (c : Case) (program golden : Text) : Outcome :=
  let differences := diff (comparedLines golden) (comparedLines (execute program))
  if differences.isEmpty then { c.pending with passed := true }
  else { c.pending with failed := true, message := mismatch differences }

/-- The outcome of a case with golden file on the files of a folder, before its time is known. -/
def Case.check (diff : List Text → List Text → Text) (folder : Folder) (c : Case) : Outcome :=
  match folder.read c.source with
  | .error e => { c.pending with failed := true, error := some (utf8 "read program: " ++ e) }
  | .ok program => match folder.read c.golden with
    | .error e => { c.pending with failed := true, error := some (utf8 "read golden file: " ++ e) }
    | .ok golden => judge diff c program golden

/-- A case with golden file has passed or failed, and is not skipped. -/
theorem Case.decided_check (diff : List Text → List Text → Text) (folder : Folder) (c : Case) :
    (c.check diff folder).failed = !(c.check diff folder).passed ∧ (c.check diff folder).skipped = false := by
  unfold Case.check
  split
  · exact ⟨rfl, rfl⟩
  · split
    · exact ⟨rfl, rfl⟩
    · unfold judge
      dsimp only
      split <;> exact ⟨rfl, rfl⟩

/-- Runs a case from a reading of the clock on, and gives the number of the next one. A case without golden file is skipped
before the clock is read; any other is timed, whatever becomes of it. -/
def Case.run (tools : Instruments) (folder : Folder) (reading : Nat) (c : Case) : Outcome × Nat :=
  if c.golden.isEmpty then
    ({ c.pending with skipped := true, message := utf8 "no " ++ goldenEnding ++ utf8 " file" }, reading)
  else ({ c.check tools.diff folder with duration := tools.elapsed reading (reading + 1) }, reading + 2)

/-! ## Differences -/

/-- The lines that are expected with a minus before them, then those that are there with a plus. -/
def markedLines (want got : List Text) : Text :=
  Text.unlines (want.map (utf8 "-" ++ ·) ++ got.map (utf8 "+" ++ ·))

/-- The differences of two lists of lines, from the first line on in which they differ. -/
def lineDiff : List Text → List Text → Text
  | w :: want, g :: got => if w = g then lineDiff want got else markedLines (w :: want) (g :: got)
  | want, got => markedLines want got

/-! ## Finding programs -/

/-- The case of a program's path, under a name. -/
def caseAt (folder : Folder) (name path : Text) : Case :=
  let golden := Path.dropEnding path sourceEnding ++ goldenEnding
  ⟨Path.dropEnding name sourceEnding, path, if folder.exists? golden then golden else []⟩

/-- The programs at or below a path, by name. A program that is the path itself is named by a dot. -/
def discover (folder : Folder) (path : Text) : Except Failure (List Case) :=
  match folder.find path with
  | .error o =>
    .error (.during (utf8 "discover " ++ path) (.message (utf8 "lstat " ++ path ++ utf8 ": " ++ o.text)))
  | .ok (.file _ _) => .ok (if path.endsIn sourceEnding then [caseAt folder (utf8 ".") path] else [])
  | .ok (.directory here) =>
    let below := folder.files.filterMap fun (p, _) =>
      if here.isPrefixOf p && (p.getLastD []).endsIn sourceEnding then some (p.drop here.length) else none
    let cases := below.map fun parts =>
      let name := Path.ofComponents parts
      caseAt folder name (Path.join [path, name])
    .ok (cases.mergeSort fun a b => !(b.name < a.name))

end Jolt.Golden
