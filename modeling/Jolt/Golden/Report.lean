import Jolt.Document
import Jolt.Duration
import Jolt.Golden

/-!
# Reports on golden programs

A report is told of outcomes as they come, and asked for a summary at the end. It shows both as text, or it writes one
JSON document of all that it was told.
-/

namespace Jolt.Golden

/-- Numbers of outcomes, and the time they took in nanoseconds. -/
structure Tally where
  total : Int
  passed : Int
  failed : Int
  skipped : Int
  time : Int
deriving DecidableEq

/-- The verdict under which an outcome is reported. -/
inductive Verdict where
  | passed
  | failed
  | skipped
deriving DecidableEq

/-- Skipped comes before failed, and what is neither has passed. -/
def Outcome.verdict (o : Outcome) : Verdict :=
  if o.skipped then .skipped else if o.failed then .failed else .passed

/-- How a report is made. -/
structure ReportStyle where
  json : Bool
  verbose : Bool
  color : Bool
  /-- How a duration is shown. -/
  showDuration : Int → Text

/-- A report in the making: what it was told, in order, and what it has written. -/
structure Report where
  told : List (Verdict × Outcome)
  output : Text

namespace Report

/-- A text in a terminal color, if colors are on. -/
def paint (style : ReportStyle) (code : String) (t : Text) : Text :=
  if style.color then utf8 "\x1b[" ++ utf8 code ++ utf8 "m" ++ t ++ utf8 "\x1b[0m" else t

/-- Lines indented by four spaces. -/
def indented (lines : List Text) : Text :=
  Text.unlines (lines.map (utf8 "    " ++ ·))

/-- An outcome in the text of a report. -/
def entry (style : ReportStyle) (verdict : Verdict) (o : Outcome) : Text :=
  match verdict with
  | .passed =>
    paint style "32" (utf8 "✓") ++ utf8 " " ++ o.name ++ utf8 " (" ++ style.showDuration o.duration ++ utf8 ")\n"
      ++ (if style.verbose && !o.message.isEmpty then indented [o.message] else [])
  | .failed =>
    paint style "31" (utf8 "✗") ++ utf8 " " ++ o.name ++ utf8 " (" ++ style.showDuration o.duration ++ utf8 ")\n"
      ++ (match o.error with
        | some e => indented [utf8 "Error: " ++ e]
        | none => [])
      ++ (if o.message.isEmpty then [] else indented o.message.lines)
  | .skipped => paint style "33" (utf8 "⊘") ++ utf8 " " ++ o.name ++ utf8 " (skipped: " ++ o.message ++ utf8 ")\n"

/-- A line of a count. -/
def count (label : String) (n : Int) : Text :=
  utf8 label ++ Text.ofInt n ++ utf8 "\n"

/-- The end of a text report. -/
def textSummary (style : ReportStyle) (t : Tally) : Text :=
  let rule := List.replicate 40 Byte.equals ++ utf8 "\n"
  utf8 "\n" ++ rule ++ count "Total:   " t.total ++ count "Passed:  " t.passed
    ++ (if 0 < t.failed then count "Failed:  " t.failed else [])
    ++ (if 0 < t.skipped then count "Skipped: " t.skipped else [])
    ++ utf8 "Time:    " ++ style.showDuration t.time ++ utf8 "\n" ++ rule
    ++ (if t.failed = 0 then paint style "32" (utf8 "All tests passed.")
      else paint style "31" (utf8 "Some tests failed.")) ++ utf8 "\n"

/-- A field that is left out where it is empty. -/
def optional (name : String) (t : Text) : List (Text × Document) :=
  if t.isEmpty then [] else [(utf8 name, .string t)]

/-- An outcome as a JSON object. -/
def outcomeJson (o : Outcome) : Document :=
  .object ([(utf8 "test", .string o.name), (utf8 "file", .string o.file), (utf8 "passed", .bool o.passed),
    (utf8 "failed", .bool o.failed), (utf8 "skipped", .bool o.skipped), (utf8 "duration", .int o.duration)]
    ++ optional "error" (o.error.getD []) ++ optional "message" o.message)

/-- A whole report as a JSON document. -/
def document (outcomes : List Outcome) (t : Tally) : Document :=
  .object [(utf8 "results", .array (outcomes.map outcomeJson)), (utf8 "total_tests", .int t.total),
    (utf8 "passed_tests", .int t.passed), (utf8 "failed_tests", .int t.failed),
    (utf8 "skipped_tests", .int t.skipped), (utf8 "total_time", .int t.time)]

/-- What is written when an outcome comes in. -/
def onOutcome (style : ReportStyle) (verdict : Verdict) (o : Outcome) : Text :=
  if style.json then [] else entry style verdict o

/-- What is written at the end, after all these outcomes. -/
def onSummary (style : ReportStyle) (outcomes : List Outcome) (t : Tally) : Text :=
  if style.json then (document outcomes t).indented 0 ++ utf8 "\n" else textSummary style t

/-- A report that was told nothing. -/
def empty : Report :=
  ⟨[], []⟩

/-- Tells a report of an outcome. -/
def tell (style : ReportStyle) (report : Report) (verdict : Verdict) (o : Outcome) : Report where
  told := report.told ++ [(verdict, o)]
  output := report.output ++ onOutcome style verdict o

/-- Asks a report for its summary. -/
def summarize (style : ReportStyle) (report : Report) (t : Tally) : Report :=
  { report with output := report.output ++ onSummary style (report.told.map Prod.snd) t }

end Report

end Jolt.Golden
