import Jolt.Proofs.Evaluation.Frame

/-!
# Values are present

A name can be bound without a value, but no run binds one so: whatever the scope, what an assignment stores is a value
(`Scope.assign_unwrap`). Over a scope without such names a run never meets the absent value. It has to be shown together
that values are present, that the scopes on the way have no gaps, and that the run does not end early; that is
`Run.Ends`, one induction over trees.

Main statement: `Program.evaluate_present`.
-/

namespace Jolt

/-- An operator asks no text of the absent value. -/
theorem Value.binary_absent (operator : Text) (v : Value) :
    Value.binary operator .absent v = .undefined ∧ Value.binary operator v .absent = .undefined := by
  constructor
  · simp [Value.binary, Value.isTextual]
  · cases v <;> simp [Value.binary, Value.isTextual]

namespace Scope

/-- An assignment stores a value, or nothing. -/
theorem assign_unwrap (scope : Scope) (target : Stmt) (operator : Text) (r : Result) :
    scope.assign target operator r.unwrap = scope ∨
      ∃ name v, v ≠ .absent ∧ scope.assign target operator r.unwrap = scope.define name v := by
  cases ht : target.name? with
  | none => exact .inl (assign_of_no_name ht scope operator _)
  | some name =>
    exact .inr ⟨name, _, combined_ne_absent r.unwrap_ne_absent scope name operator, assign_of_name? ht scope operator _⟩

/-- A name keeps its binding, or it is bound to a value. -/
theorem Binds.get?_eq_or {names : List Text} {before after : Scope} (h : Binds names before after) (name : Text) :
    after.get? name = before.get? name ∨ ∃ v, v ≠ .absent ∧ after.get? name = some v := by
  induction h with
  | nothing => exact .inl rfl
  | @define after other v _ _ hv ih =>
    by_cases he : name = other
    · rw [he]
      exact .inr ⟨v, hv, get?_define_self after other v⟩
    · rw [get?_define_of_ne he]
      exact ih

end Scope

/-- No run binds a name without a value: an assignment stores a value or nothing, so a name keeps its binding or is bound
to a value. Over a scope in which every bound name has a value, every expression has a value, every result of a statement
or a program carries one, and no run ends early; nor is the absent value ever asked for its text. -/
theorem Program.evaluate_present (p : Program) (scope : Scope) :
    (∀ (target : Stmt) (operator : Text) (r : Result), scope.assign target operator r.unwrap = scope ∨
      ∃ name v, v ≠ .absent ∧ scope.assign target operator r.unwrap = scope.define name v) ∧
    (∀ name, (p.evaluate scope).2.get? name = scope.get? name ∨
      ∃ v, v ≠ .absent ∧ (p.evaluate scope).2.get? name = some v) ∧
    (∀ operator v, Value.binary operator .absent v = .undefined ∧ Value.binary operator v .absent = .undefined) ∧
    (scope.Whole →
      (∀ e : Expr, ∃ v after, e.eval scope = (some v, after) ∧ v ≠ .absent ∧ after.Whole) ∧
      (∀ s : Stmt, ∃ r after, s.run scope = (some r, after) ∧ (∀ x ∈ r.spread, x.IsPresent) ∧ after.Whole) ∧
      ∃ results after, p.evaluate scope = (some results, after) ∧ (∀ r ∈ results, r.IsPresent) ∧ after.Whole) := by
  refine ⟨scope.assign_unwrap, fun name => ?_, Value.binary_absent, fun hwhole => ⟨fun e => e.ends_eval scope hwhole,
    fun s => s.ends_run scope hwhole, p.ends_evaluate scope hwhole⟩⟩
  rw [Program.evaluate_eq_runAll]
  exact (Stmt.binds_runAll p (List.Subset.refl _) scope).get?_eq_or name

/-- A tree with a missing child, over a scope without gaps and over one in which the name has no value. -/
theorem Program.evaluate_present_missing :
    let x := utf8 "x"
    let p : Program := [.block [.output (.expr (.typeOf (.identifier x))), .expr (.assign (.expr (.identifier x)) (utf8 "=")
      (.expr (.binary (.identifier x) (utf8 "+") .missing)))]]
    let whole := Scope.empty.define x (.string (utf8 "a"))
    let gap := Scope.empty.define x .absent
    whole.Whole ∧ (∃ results after, p.evaluate whole = (some results, after) ∧ (∀ r ∈ results, r.IsPresent) ∧ after.Whole) ∧
      p.evaluate whole = (some [.displayable (.string (utf8 "string"))], Scope.empty.define x .undefined) ∧
      p.evaluate gap = (none, gap) := by
  intro x p whole gap
  have hwhole : whole.Whole := Scope.whole_empty.define x (by simp)
  obtain ⟨-, -, -, hpresent⟩ := evaluate_present p whole
  exact ⟨hwhole, (hpresent hwhole).2.2, rfl, rfl⟩

end Jolt
