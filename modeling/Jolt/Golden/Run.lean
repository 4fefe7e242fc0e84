import Jolt.Golden.Report

/-!
# Runs of golden programs

A run goes through cases in order, counts their outcomes and reports them, with the time that it took. Outcomes and counts
go on from one run to the next; the time is that of the last one.
-/

namespace Jolt.Golden

/-- What to run. -/
structure Plan where
  /-- Only cases whose name holds this text are run. -/
  filter : Text
  /-- Stop after the first failure. -/
  failFast : Bool

/-- The state of runs: outcomes in order, their tally, and the report on them. -/
structure Progress where
  outcomes : List Outcome
  tally : Tally
  report : Report

/-- Nothing has been run. -/
def Progress.start : Progress :=
  ⟨[], ⟨0, 0, 0, 0, 0⟩, .empty⟩

/-- What was reported. -/
def Progress.output (p : Progress) : Text :=
  p.report.output

/-- The tally after one more outcome. -/
def Tally.add (t : Tally) : Verdict → Tally
  | .passed => { t with total := t.total + 1, passed := t.passed + 1 }
  | .failed => { t with total := t.total + 1, failed := t.failed + 1 }
  | .skipped => { t with total := t.total + 1, skipped := t.skipped + 1 }

/-- Counts and reports an outcome. -/
def Progress.record (style : ReportStyle) (p : Progress) (o : Outcome) : Progress where
  outcomes := p.outcomes ++ [o]
  tally := p.tally.add o.verdict
  report := p.report.tell style o.verdict o

/-- Whether a case is to be run. -/
def Plan.selects (plan : Plan) (c : Case) : Bool :=
  plan.filter.isEmpty || Text.occursIn plan.filter c.name

/-- Runs cases in order from a reading of the clock on, as far as the plan says, and gives the number of the next one. -/
def Progress.runCases (tools : Instruments) (style : ReportStyle) (plan : Plan) (folder : Folder) :
    List Case → Nat → Progress → Progress × Nat
  | [], reading, p => (p, reading)
  | c :: rest, reading, p =>
    if plan.selects c then
      let (o, reading) := c.run tools folder reading
      let p := p.record style o
      if plan.failFast && o.failed then (p, reading) else runCases tools style plan folder rest reading p
    else runCases tools style plan folder rest reading p

/-- Runs cases and reports the summary. The clock is read before the first case and after the last. -/
def Progress.run (tools : Instruments) (style : ReportStyle) (plan : Plan) (folder : Folder) (cases : List Case)
    (p : Progress) : Progress :=
  let (p, last) := Progress.runCases tools style plan folder cases 1 p
  let tally := { p.tally with time := tools.elapsed 0 last }
  { p with tally := tally, report := p.report.summarize style tally }

end Jolt.Golden
