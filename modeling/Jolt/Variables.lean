import Jolt.Evaluation

/-!
# Variables

The variables of a session all have values: there are none at its start, and no run binds a name without a value. Over
such variables no run ends early (`Expr.ends_eval`, `Stmt.ends_run`), so every source has results or a diagnostic
(`Variables.emit`).
-/

namespace Jolt

theorem Scope.Whole.assign {scope : Scope} (h : scope.Whole) (target : Stmt) (operator : Text) {v : Value}
    (hv : v ≠ .absent) : (scope.assign target operator v).Whole := by
  unfold Scope.assign
  split
  · exact h.define _ (Scope.combined_ne_absent hv _ _ _)
  · exact h

/-- A result that carries a value. -/
def Result.IsPresent (r : Result) : Prop :=
  ∃ v, v ≠ .absent ∧ (r = plain v ∨ r = displayable v)

/-! ## Runs that come to their end -/

/-- Over a scope without gaps the run comes to its end, gives something with a property and leaves such a scope. -/
def Run.Ends {α : Type} (m : Run α) (post : α → Prop) : Prop :=
  ∀ scope : Scope, scope.Whole → ∃ x after, m scope = (some x, after) ∧ post x ∧ after.Whole

namespace Run.Ends

variable {α β : Type} {m : Run α} {k : α → Run β} {post : α → Prop} {post' : β → Prop}

theorem pure {x : α} (h : post x) : Ends (Pure.pure x) post :=
  fun scope hscope => ⟨x, scope, rfl, h, hscope⟩

theorem bind (hm : m.Ends post) (hk : ∀ x, post x → (k x).Ends post') : (m >>= k).Ends post' := by
  intro scope hscope
  obtain ⟨x, between, hrun, hx, hbetween⟩ := hm scope hscope
  rw [Run.bind_of_some hrun]
  exact hk x hx between hbetween

end Run.Ends

mutual

theorem Expr.ends_eval : (e : Expr) → e.eval.Ends (· ≠ .absent)
  | .number _ | .string _ | .unrecognized _ | .missing => .pure (by simp)
  | .identifier name => fun scope h => ⟨scope.value name, scope, rfl, h.value_ne_absent name, h⟩
  | .binary left operator right =>
    left.ends_eval.bind fun a _ => right.ends_eval.bind fun b _ => .pure (Value.binary_ne_absent operator a b)
  | .comparison left operator right =>
    left.ends_eval.bind fun a _ => right.ends_eval.bind fun b _ => .pure (Value.compare_ne_absent operator a b)
  | .ternary condition yes no => condition.ends_eval.bind fun c _ => by
    split
    · exact yes.ends_eval
    · exact no.ends_eval
  | .typeOf operand => operand.ends_eval.bind fun v hv => by
    -- only the absent value has no type
    cases v with
    | absent => exact absurd rfl hv
    | number | string | boolean | undefined => exact .pure (by simp)
  | .assign target operator value => value.ends_run.bind fun r _ scope h =>
    ⟨_, _, rfl, by simp, h.assign target operator r.unwrap_ne_absent⟩

theorem Stmt.ends_run : (s : Stmt) → s.run.Ends fun r => ∀ x ∈ r.spread, x.IsPresent
  | .expr e => e.ends_eval.bind fun v hv => .pure (by
    split
    · simp [Result.spread]
    · exact List.forall_mem_singleton.2 ⟨v, hv, .inl rfl⟩)
  | .output (.expr e) => e.ends_eval.bind fun v hv => .pure (List.forall_mem_singleton.2 ⟨v, hv, .inr rfl⟩)
  | .output (.output _) | .output (.comment _) | .output (.ifThen _ _) | .output (.block _) =>
    .pure (List.forall_mem_singleton.2 ⟨_, by simp, .inr rfl⟩)
  | .comment _ => .pure (by simp [Result.spread])
  | .ifThen condition body => condition.ends_eval.bind fun c _ => by
    split
    · exact (Stmt.ends_runAll body).bind fun _ h => .pure h
    · exact .pure (by simp [Result.spread])
  | .block body => (Stmt.ends_runAll body).bind fun _ h => .pure h

theorem Stmt.ends_runAll : (body : List Stmt) → (Stmt.runAll body).Ends fun results => ∀ x ∈ results, x.IsPresent
  | [] => .pure (by simp)
  | s :: rest => s.ends_run.bind fun _ hs => (Stmt.ends_runAll rest).bind fun _ hrest =>
    .pure (List.forall_mem_append.2 ⟨hs, hrest⟩)

end

theorem Result.isPresent_of_mem_flatten {r x : Result} (h : ∀ x ∈ r.spread, x.IsPresent) (hx : x ∈ r.flatten) :
    x.IsPresent := by
  cases r with
  | buffered results => exact h x (List.mem_filter.1 hx).1
  | suppressed | plain | displayable | unknown => exact h x hx

theorem Program.ends_evaluate (p : Program) : p.evaluate.Ends fun results => ∀ x ∈ results, x.IsPresent := by
  induction p with
  | nil => exact .pure (by simp)
  | cons s rest ih =>
    exact s.ends_run.bind fun r hr => ih.bind fun _ hrest =>
      .pure (List.forall_mem_append.2 ⟨fun _ => Result.isPresent_of_mem_flatten hr, hrest⟩)

section Emit

variable {source file : Text} {p : Program} {d : Diagnostic}

theorem emit_of_error (h : parse source file = .error d) (scope : Scope) :
    emit source file scope = (some (.error d), scope) := by
  rw [emit, h]
  rfl

/-- A source that parses has results, and they carry values. -/
theorem exists_emit (h : parse source file = .ok p) {scope : Scope} (hscope : scope.Whole) : ∃ results after,
    emit source file scope = (some (.ok results), after) ∧ (∀ x ∈ results, x.IsPresent) ∧ after.Whole := by
  obtain ⟨results, after, hrun, hpresent, hafter⟩ := p.ends_evaluate scope hscope
  refine ⟨results, after, ?_, hpresent, hafter⟩
  rw [emit, h]
  exact Run.bind_of_some hrun

end Emit

theorem ends_emit (source file : Text) : (emit source file).Ends fun _ => True := by
  intro scope hscope
  cases hparse : parse source file with
  | error d => exact ⟨_, _, emit_of_error hparse scope, trivial, hscope⟩
  | ok p =>
    obtain ⟨results, after, hemit, -, hafter⟩ := exists_emit hparse hscope
    exact ⟨_, _, hemit, trivial, hafter⟩

/-! ## Sessions -/

/-- The variables of a session. -/
structure Variables where
  scope : Scope
  whole : scope.Whole

namespace Variables

/-- A session starts without variables. -/
def empty : Variables :=
  ⟨.empty, Scope.whole_empty⟩

section Run

variable {α : Type} {m : Run α} {post : α → Prop} (vars : Variables) (h : m.Ends post)
include h

theorem isSome_run : (m vars.scope).1.isSome = true := by
  obtain ⟨x, after, hrun, -, -⟩ := h vars.scope vars.whole
  rw [hrun]
  rfl

theorem whole_run : (m vars.scope).2.Whole := by
  obtain ⟨x, after, hrun, -, hafter⟩ := h vars.scope vars.whole
  rw [hrun]
  exact hafter

end Run

/-- Reads and runs a source. One that does not parse leaves the variables as they are. -/
def emit (vars : Variables) (source file : Text) : Except Diagnostic (List Result) × Variables :=
  let run := Jolt.emit source file vars.scope
  (run.1.get (vars.isSome_run (ends_emit source file)), ⟨run.2, vars.whole_run (ends_emit source file)⟩)

theorem emit_fst {vars : Variables} {source file : Text} {outcome : Except Diagnostic (List Result)} {after : Scope}
    (h : Jolt.emit source file vars.scope = (some outcome, after)) : (vars.emit source file).1 = outcome :=
  Option.some.inj ((Option.some_get _).trans (congrArg Prod.fst h))

end Variables

end Jolt
