import Jolt.Variables

/-!
# What a program shows

`Stmt.observe` says without buffers what a statement shows: an expression its value, an output what it puts out, a taken
body what its statements show, one after the other. Everything else shows nothing.

Main statement (`Program.evaluate_observed`): a program gives what its statements show. Two flattenings have to agree for
this. A body splices the buffers of its statements as they are, and a program drops what is suppressed in the buffers of
its own. What carries the proof is that a buffer holds shown results only (`Stmt.gives_flat`), at any depth.
-/

namespace Jolt

/-! ## What is shown -/

mutual

/-- What a statement shows. -/
def Stmt.observe : Stmt → Run (List Result)
  | .expr e => do
    let v ← e.eval
    return if e.isAssign then [] else [.plain v]
  | .output (.expr e) => do
    let v ← e.eval
    return [.displayable v]
  | .output _ => return [.displayable .undefined]
  | .comment _ => return []
  | .ifThen condition body => do
    let c ← condition.eval
    if c.truthy then Stmt.observeAll body else return []
  | .block body => Stmt.observeAll body

/-- What statements show in order. -/
def Stmt.observeAll : List Stmt → Run (List Result)
  | [] => return []
  | s :: rest => do
    let shown ← s.observe
    let more ← Stmt.observeAll rest
    return shown ++ more

end

/-! ## What a run gives -/

namespace Run

variable {α β : Type} {m : Run α} {k k' : α → Run β} {post : α → Prop} {post' : β → Prop}

/-- What the run gives, if it comes to its end, has a property. -/
def Gives (m : Run α) (post : α → Prop) : Prop :=
  ∀ ⦃scope after : Scope⦄ ⦃x : α⦄, m scope = (some x, after) → post x

theorem Gives.pure {x : α} (h : post x) : Gives (Pure.pure x) post := by
  intro scope after y hy
  obtain rfl : x = y := Option.some.inj (congrArg Prod.fst hy)
  exact h

theorem Gives.bind (hm : m.Gives post) (hk : ∀ x, post x → (k x).Gives post') : (m >>= k).Gives post' := by
  intro scope after y hy
  obtain ⟨x, between, hx, hy⟩ := exists_of_bind hy
  exact hk x (hm hx) hy

/-- A property of what comes last does not need one of what came before. -/
theorem Gives.last (hk : ∀ x, (k x).Gives post') : (m >>= k).Gives post' := by
  intro scope after y hy
  obtain ⟨x, between, -, hy⟩ := exists_of_bind hy
  exact hk x hy

/-- How a run goes on matters only for what it can give. -/
theorem Gives.bind_congr (hm : m.Gives post) (hk : ∀ x, post x → k x = k' x) : m >>= k = m >>= k' := by
  funext scope
  rcases hx : m scope with ⟨_ | x, between⟩
  · rw [bind_of_none hx, bind_of_none hx]
  · rw [bind_of_some hx, bind_of_some hx, hk x (hm hx)]

end Run

/-! ## Buffers are flat -/

namespace Result

/-- A result with a value to show. -/
def IsShown (r : Result) : Prop :=
  (∃ v, r = plain v) ∨ ∃ v, r = displayable v

theorem isShown_plain (v : Value) : (plain v).IsShown :=
  .inl ⟨v, rfl⟩

theorem isShown_displayable (v : Value) : (displayable v).IsShown :=
  .inr ⟨v, rfl⟩

/-- The results of statements: nothing, one that is shown, or a buffer of such. -/
def Flat : Result → Prop
  | suppressed => True
  | buffered results => ∀ r ∈ results, r.IsShown
  | r => r.IsShown

theorem Flat.spread {r : Result} (h : r.Flat) : ∀ x ∈ r.spread, x.IsShown := by
  intro x hx
  cases r with
  | suppressed => cases hx
  | buffered results => exact h x hx
  | plain v | displayable v | unknown =>
    obtain rfl := List.mem_singleton.1 hx
    exact h

theorem IsShown.not_isSuppressed {r : Result} (h : r.IsShown) : r.isSuppressed = false := by
  obtain ⟨v, rfl⟩ | ⟨v, rfl⟩ := h <;> rfl

/-- In a flat result there is nothing that only a program would drop. -/
theorem Flat.flatten_eq {r : Result} (h : r.Flat) : r.flatten = r.spread := by
  cases r with
  | buffered results =>
    rw [flatten, Result.spread, List.filter_eq_self]
    intro x hx
    rw [(h x hx).not_isSuppressed]
    rfl
  | suppressed | plain v | displayable v | unknown => rfl

end Result

mutual

theorem Stmt.gives_flat : (s : Stmt) → s.run.Gives Result.Flat
  | .expr e => .last fun v => .pure (by
    split
    · trivial
    · exact Result.isShown_plain v)
  | .output (.expr e) => .last fun v => .pure (Result.isShown_displayable v)
  | .output (.output _) | .output (.comment _) | .output (.ifThen _ _) | .output (.block _) =>
    .pure (Result.isShown_displayable _)
  | .comment _ => .pure trivial
  | .ifThen condition body => .last fun c => by
    split
    · exact (Stmt.gives_shown body).bind fun _ h => .pure h
    · exact .pure trivial
  | .block body => (Stmt.gives_shown body).bind fun _ h => .pure h

theorem Stmt.gives_shown : (body : List Stmt) → (Stmt.runAll body).Gives fun results => ∀ r ∈ results, r.IsShown
  | [] => .pure (by simp)
  | s :: rest => s.gives_flat.bind fun _ hr => (Stmt.gives_shown rest).bind fun _ hmore =>
    .pure (List.forall_mem_append.2 ⟨hr.spread, hmore⟩)

end

/-! ## A body gives what its statements show -/

mutual

theorem Stmt.observe_eq : (s : Stmt) → s.observe = Result.spread <$> s.run
  | .expr e => by
    simp only [Stmt.observe, Stmt.run, map_eq_pure_bind, bind_assoc, pure_bind]
    cases e.isAssign <;> rfl
  | .output (.expr e) => by
    simp only [Stmt.observe, Stmt.run, map_eq_pure_bind, bind_assoc, pure_bind]
    rfl
  | .output (.output _) | .output (.comment _) | .output (.ifThen _ _) | .output (.block _) => rfl
  | .comment _ => rfl
  | .ifThen condition body => by
    simp only [Stmt.observe, Stmt.run, map_eq_pure_bind, bind_assoc]
    congr 1
    funext c
    split
    · simp only [Stmt.observeAll_eq body, bind_assoc, pure_bind, Result.spread, bind_pure]
    · rfl
  | .block body => by
    simp only [Stmt.observe, Stmt.run, map_eq_pure_bind, bind_assoc, pure_bind, Stmt.observeAll_eq body, Result.spread,
      bind_pure]

theorem Stmt.observeAll_eq : (body : List Stmt) → Stmt.observeAll body = Stmt.runAll body
  | [] => rfl
  | s :: rest => by
    simp only [Stmt.observeAll, Stmt.runAll, Stmt.observe_eq s, Stmt.observeAll_eq rest, map_eq_pure_bind, bind_assoc,
      pure_bind]

end

/-! ## Programs -/

/-- A program runs like a body. -/
theorem Program.evaluate_eq_runAll (program : Program) : program.evaluate = Stmt.runAll program := by
  induction program with
  | nil => rfl
  | cons s rest ih =>
    rw [Program.evaluate, Stmt.runAll, ih]
    exact s.gives_flat.bind_congr fun r hr => by rw [hr.flatten_eq]

/-- A program gives what its statements show, in their order, with the same scope after them; over a scope without gaps it
comes to its end. Every result has a value, and whatever statement is run, a buffer that it gives holds no other buffer
and nothing suppressed. -/
theorem Program.evaluate_observed (program : Program) (scope : Scope) :
    program.evaluate scope = Stmt.observeAll program scope ∧
      (scope.Whole → ∃ results after, program.evaluate scope = (some results, after)) ∧
      (∀ results after, program.evaluate scope = (some results, after) → ∀ r ∈ results, r.IsShown) ∧
      ∀ (s : Stmt) (before after : Scope) (results : List Result), s.run before = (some (.buffered results), after) →
        ∀ r ∈ results, r.IsShown := by
  rw [Stmt.observeAll_eq, Program.evaluate_eq_runAll]
  refine ⟨rfl, fun hwhole => ?_, fun results after hrun => Stmt.gives_shown program hrun,
    fun s before after results hrun => s.gives_flat hrun⟩
  obtain ⟨results, after, hrun, -, -⟩ := Stmt.ends_runAll program scope hwhole
  exact ⟨results, after, hrun⟩

/-- A block in a body, with a comment and an assignment beside what is shown. -/
theorem Program.evaluate_observed_nested :
    let x := utf8 "x"
    let program : Program := [.ifThen (.identifier x) [.block [.output (.expr (.identifier x)), .comment []],
      .expr (.assign (.expr (.identifier x)) (utf8 "=") (.expr .missing)), .expr (.identifier x)]]
    let scope := Scope.empty.define x (.boolean true)
    let results : List Result := [.displayable (.boolean true), .plain .undefined]
    scope.Whole ∧ (∃ results after, program.evaluate scope = (some results, after)) ∧
      Stmt.observeAll program scope = (some results, Scope.empty.define x .undefined) ∧ ∀ r ∈ results, r.IsShown := by
  intro x program scope results
  have hwhole : scope.Whole := Scope.whole_empty.define x (by simp)
  have hrun : program.evaluate scope = (some results, Scope.empty.define x .undefined) := rfl
  obtain ⟨hobserved, hends, hshown, -⟩ := evaluate_observed program scope
  exact ⟨hwhole, hends hwhole, hobserved.symm.trans hrun, hshown _ _ hrun⟩

end Jolt
