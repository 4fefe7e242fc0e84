import Jolt.Proofs.Evaluation.Buffers

/-!
# The variables that a program touches

A program reads and binds only names that occur in it. Two facts about evaluation say so, each by one induction over
trees:

* what a run does to a scope is to bind names, one after the other, that are targets of assignments, and never without a
  value (`Run.Binds`);
* two runs from scopes that agree on the names of a tree give the same and end in scopes that agree on them
  (`Run.Alike`).

Both hold of a run that ends early too.

Main statement: `Program.evaluate_confined`.
-/

namespace Jolt

/-! ## The names of a tree -/

/-- The name that a statement is, if it is one; an assignment binds that name. -/
def Stmt.name? : Stmt → Option Text
  | .expr (.identifier name) => some name
  | _ => none

mutual

/-- The names that occur in an expression. -/
def Expr.names : Expr → List Text
  | .identifier name => [name]
  | .binary left _ right | .comparison left _ right => left.names ++ right.names
  | .ternary condition yes no => condition.names ++ (yes.names ++ no.names)
  | .typeOf operand => operand.names
  | .assign target _ value => target.names ++ value.names
  | .number _ | .string _ | .unrecognized _ | .missing => []

/-- The names that occur in a statement. -/
def Stmt.names : Stmt → List Text
  | .expr e => e.names
  | .output value => value.names
  | .comment _ => []
  | .ifThen condition body => condition.names ++ Stmt.namesAll body
  | .block body => Stmt.namesAll body

/-- The names that occur in statements. -/
def Stmt.namesAll : List Stmt → List Text
  | [] => []
  | s :: rest => s.names ++ Stmt.namesAll rest

end

mutual

/-- The names that are targets of assignments in an expression. -/
def Expr.targets : Expr → List Text
  | .binary left _ right | .comparison left _ right => left.targets ++ right.targets
  | .ternary condition yes no => condition.targets ++ (yes.targets ++ no.targets)
  | .typeOf operand => operand.targets
  | .assign target _ value => target.name?.toList ++ (target.targets ++ value.targets)
  | .number _ | .string _ | .identifier _ | .unrecognized _ | .missing => []

/-- The names that are targets of assignments in a statement. -/
def Stmt.targets : Stmt → List Text
  | .expr e => e.targets
  | .output value => value.targets
  | .comment _ => []
  | .ifThen condition body => condition.targets ++ Stmt.targetsAll body
  | .block body => Stmt.targetsAll body

/-- The names that are targets of assignments in statements. -/
def Stmt.targetsAll : List Stmt → List Text
  | [] => []
  | s :: rest => s.targets ++ Stmt.targetsAll rest

end

theorem Stmt.names_of_name? {s : Stmt} {name : Text} (h : s.name? = some name) : s.names = [name] := by
  unfold Stmt.name? at h
  split at h
  · cases h
    rfl
  · cases h

/-! ## What a run binds -/

namespace Scope

theorem assign_of_name? {target : Stmt} {name : Text} (h : target.name? = some name) (scope : Scope) (operator : Text)
    (v : Value) : scope.assign target operator v = scope.define name (scope.combined name operator v) := by
  unfold Stmt.name? at h
  split at h
  · cases h
    rfl
  · cases h

theorem assign_of_no_name {target : Stmt} (h : target.name? = none) (scope : Scope) (operator : Text) (v : Value) :
    scope.assign target operator v = scope := by
  unfold assign
  split
  · cases h
  · rfl

end Scope

/-- The scopes that come from a scope by binding names of a list to values, one after the other. -/
inductive Scope.Binds (names : List Text) (before : Scope) : Scope → Prop
  | nothing : Binds names before before
  | define {after : Scope} {name : Text} {v : Value} : Binds names before after → name ∈ names → v ≠ .absent →
      Binds names before (after.define name v)

namespace Scope.Binds

variable {names : List Text} {before between after : Scope}

theorem trans (h₁ : Binds names before between) (h₂ : Binds names between after) : Binds names before after := by
  induction h₂ with
  | nothing => exact h₁
  | define _ hname hv ih => exact .define ih hname hv

theorem assign (h : Binds names before after) {target : Stmt} (hn : target.name?.toList ⊆ names) (operator : Text)
    {v : Value} (hv : v ≠ .absent) : Binds names before (after.assign target operator v) := by
  cases ht : target.name? with
  | none =>
    rw [assign_of_no_name ht]
    exact h
  | some name =>
    rw [assign_of_name? ht]
    exact .define h (hn (by simp [ht])) (combined_ne_absent hv _ _ _)

theorem get?_eq (h : Binds names before after) {name : Text} (hn : name ∉ names) : after.get? name = before.get? name := by
  induction h with
  | nothing => rfl
  | define _ hmem _ ih =>
    rw [get?_define_of_ne (ne_of_mem_of_not_mem hmem hn).symm, ih]

theorem isSome_get? (h : Binds names before after) {name : Text} (hb : (before.get? name).isSome = true) :
    (after.get? name).isSome = true := by
  induction h with
  | nothing => exact hb
  | @define after other v _ _ _ ih =>
    by_cases he : name = other
    · simp [he]
    · rw [get?_define_of_ne he]
      exact ih

end Scope.Binds

/-- The run binds names of a list to values and does nothing else to the scope, whether it comes to its end or not. -/
def Run.Binds {α : Type} (names : List Text) (m : Run α) : Prop :=
  ∀ scope, Scope.Binds names scope (m scope).2

namespace Run.Binds

variable {α β : Type} {names : List Text} {m : Run α} {k : α → Run β}

theorem pure (x : α) : Binds names (Pure.pure x) :=
  fun _ => .nothing

theorem bind (hm : Binds names m) (hk : ∀ x, Binds names (k x)) : Binds names (m >>= k) := by
  intro scope
  have hscope := hm scope
  rcases hx : m scope with ⟨_ | x, between⟩
  · rw [hx] at hscope
    rw [Run.bind_of_none hx]
    exact hscope
  · rw [hx] at hscope
    rw [Run.bind_of_some hx]
    exact hscope.trans (hk x between)

end Run.Binds

section Binds

variable {names : List Text}

mutual

theorem Expr.binds_eval : (e : Expr) → e.targets ⊆ names → e.eval.Binds names
  | .number _, _ | .string _, _ | .identifier _, _ | .unrecognized _, _ | .missing, _ => fun _ => .nothing
  | .binary left _ right, h | .comparison left _ right, h => by
    rw [Expr.targets, List.append_subset] at h
    exact (left.binds_eval h.1).bind fun _ => (right.binds_eval h.2).bind fun _ => .pure _
  | .ternary condition yes no, h => by
    rw [Expr.targets, List.append_subset, List.append_subset] at h
    refine (condition.binds_eval h.1).bind fun c => ?_
    split
    · exact yes.binds_eval h.2.1
    · exact no.binds_eval h.2.2
  | .typeOf operand, h => (operand.binds_eval h).bind fun v => by
    cases v <;> exact fun _ => .nothing
  | .assign target operator value, h => by
    rw [Expr.targets, List.append_subset, List.append_subset] at h
    exact (value.binds_run h.2.2).bind fun r _ => Scope.Binds.nothing.assign h.1 operator r.unwrap_ne_absent

theorem Stmt.binds_run : (s : Stmt) → s.targets ⊆ names → s.run.Binds names
  | .expr e, h | .output (.expr e), h => (e.binds_eval h).bind fun _ => .pure _
  | .output (.output _), _ | .output (.comment _), _ | .output (.ifThen _ _), _ | .output (.block _), _
  | .comment _, _ => .pure _
  | .ifThen condition body, h => by
    rw [Stmt.targets, List.append_subset] at h
    refine (condition.binds_eval h.1).bind fun c => ?_
    split
    · exact (Stmt.binds_runAll body h.2).bind fun _ => .pure _
    · exact .pure _
  | .block body, h => (Stmt.binds_runAll body h).bind fun _ => .pure _

theorem Stmt.binds_runAll : (body : List Stmt) → Stmt.targetsAll body ⊆ names → (Stmt.runAll body).Binds names
  | [], _ => .pure _
  | s :: rest, h => by
    rw [Stmt.targetsAll, List.append_subset] at h
    exact (s.binds_run h.1).bind fun _ => (Stmt.binds_runAll rest h.2).bind fun _ => .pure _

end

end Binds

/-! ## Two runs -/

namespace Scope

/-- The scopes bind the same of these names, to the same values. -/
def Agree (names : List Text) (a b : Scope) : Prop :=
  ∀ name ∈ names, a.get? name = b.get? name

instance (names : List Text) (a b : Scope) : Decidable (Agree names a b) :=
  inferInstanceAs (Decidable (∀ name ∈ names, a.get? name = b.get? name))

/-- The same was given, and the scopes afterwards agree. -/
structure Alike {α : Type} (names : List Text) (x y : α × Scope) : Prop where
  given : x.1 = y.1
  scopes : Agree names x.2 y.2

variable {names : List Text} {a b : Scope}

theorem Agree.value_eq (h : Agree names a b) {name : Text} (hn : name ∈ names) : a.value name = b.value name := by
  rw [value, value, h name hn]

theorem Agree.define (h : Agree names a b) (name : Text) (v : Value) :
    Agree names (a.define name v) (b.define name v) := by
  intro other hother
  by_cases he : other = name
  · simp [he]
  · rw [get?_define_of_ne he, get?_define_of_ne he]
    exact h other hother

/-- A compound assignment reads what it is going to bind, so its target has to be among the names. -/
theorem Agree.assign (h : Agree names a b) {target : Stmt} (ht : target.names ⊆ names) (operator : Text) (v : Value) :
    Agree names (a.assign target operator v) (b.assign target operator v) := by
  cases hname : target.name? with
  | none =>
    rw [assign_of_no_name hname, assign_of_no_name hname]
    exact h
  | some name =>
    have hmem : name ∈ names := ht (by simp [Stmt.names_of_name? hname])
    have hcombined : a.combined name operator v = b.combined name operator v := by
      rw [combined, combined, h.value_eq hmem]
    rw [assign_of_name? hname, assign_of_name? hname, hcombined]
    exact h.define _ _

end Scope

/-- Over scopes that agree on the names of a list the run gives the same, or ends early over both, and the scopes after it
agree on these names. -/
def Run.Alike {α : Type} (names : List Text) (m : Run α) : Prop :=
  ∀ ⦃a b : Scope⦄, a.Agree names b → Scope.Alike names (m a) (m b)

namespace Run.Alike

variable {α β : Type} {names : List Text} {m : Run α} {k : α → Run β}

theorem pure (x : α) : Alike names (Pure.pure x) :=
  fun _ _ hab => ⟨rfl, hab⟩

theorem bind (hm : Alike names m) (hk : ∀ x, Alike names (k x)) : Alike names (m >>= k) := by
  intro a b hab
  have hfirst := hm hab
  rcases ha : m a with ⟨x?, a'⟩
  rcases hb : m b with ⟨y?, b'⟩
  rw [ha, hb] at hfirst
  obtain ⟨rfl, hscopes⟩ : x? = y? ∧ a'.Agree names b' := ⟨hfirst.given, hfirst.scopes⟩
  cases x? with
  | none =>
    rw [Run.bind_of_none ha, Run.bind_of_none hb]
    exact ⟨rfl, hscopes⟩
  | some x =>
    rw [Run.bind_of_some ha, Run.bind_of_some hb]
    exact hk x hscopes

end Run.Alike

section Alike

variable {names : List Text}

mutual

theorem Expr.alike_eval : (e : Expr) → e.names ⊆ names → e.eval.Alike names
  | .number _, _ | .string _, _ | .unrecognized _, _ | .missing, _ => .pure _
  | .identifier name, h => fun _ _ hab => ⟨congrArg some (hab.value_eq (h (by simp [Expr.names]))), hab⟩
  | .binary left _ right, h | .comparison left _ right, h => by
    rw [Expr.names, List.append_subset] at h
    exact (left.alike_eval h.1).bind fun _ => (right.alike_eval h.2).bind fun _ => .pure _
  | .ternary condition yes no, h => by
    rw [Expr.names, List.append_subset, List.append_subset] at h
    refine (condition.alike_eval h.1).bind fun c => ?_
    split
    · exact yes.alike_eval h.2.1
    · exact no.alike_eval h.2.2
  | .typeOf operand, h => (operand.alike_eval h).bind fun v => by
    cases v <;> exact fun _ _ hab => ⟨rfl, hab⟩
  | .assign target operator value, h => by
    rw [Expr.names, List.append_subset] at h
    exact (value.alike_run h.2).bind fun r _ _ hab => ⟨rfl, hab.assign h.1 operator r.unwrap⟩

theorem Stmt.alike_run : (s : Stmt) → s.names ⊆ names → s.run.Alike names
  | .expr e, h | .output (.expr e), h => (e.alike_eval h).bind fun _ => .pure _
  | .output (.output _), _ | .output (.comment _), _ | .output (.ifThen _ _), _ | .output (.block _), _
  | .comment _, _ => .pure _
  | .ifThen condition body, h => by
    rw [Stmt.names, List.append_subset] at h
    refine (condition.alike_eval h.1).bind fun c => ?_
    split
    · exact (Stmt.alike_runAll body h.2).bind fun _ => .pure _
    · exact .pure _
  | .block body, h => (Stmt.alike_runAll body h).bind fun _ => .pure _

theorem Stmt.alike_runAll : (body : List Stmt) → Stmt.namesAll body ⊆ names → (Stmt.runAll body).Alike names
  | [], _ => .pure _
  | s :: rest, h => by
    rw [Stmt.namesAll, List.append_subset] at h
    exact (s.alike_run h.1).bind fun _ => (Stmt.alike_runAll rest h.2).bind fun _ => .pure _

end

end Alike

/-! ## Programs -/

/-- Evaluation is confined to the names of a program. Scopes that agree on them give the same results and agree on them
afterwards. A name that no assignment has as its target stays bound as it was or unbound, and no name becomes unbound. -/
theorem Program.evaluate_confined (program : Program) :
    (∀ a b : Scope, a.Agree (Stmt.namesAll program) b →
      (program.evaluate a).1 = (program.evaluate b).1 ∧
        (program.evaluate a).2.Agree (Stmt.namesAll program) (program.evaluate b).2) ∧
    ∀ (scope : Scope) (name : Text),
      (name ∉ Stmt.targetsAll program → (program.evaluate scope).2.get? name = scope.get? name) ∧
        ((scope.get? name).isSome → ((program.evaluate scope).2.get? name).isSome) := by
  rw [Program.evaluate_eq_runAll]
  constructor
  · intro a b hab
    have halike := Stmt.alike_runAll program (List.Subset.refl _) hab
    exact ⟨halike.given, halike.scopes⟩
  · intro scope name
    have hbinds := Stmt.binds_runAll program (List.Subset.refl _) scope
    exact ⟨hbinds.get?_eq, hbinds.isSome_get?⟩

/-- Two scopes that differ in a name that does not occur, and a program that binds a name in an operand. -/
theorem Program.evaluate_confined_operand :
    let x := utf8 "x"
    let y := utf8 "y"
    let program : Program :=
      [.output (.expr (.binary (.assign (.expr (.identifier x)) (utf8 "+=") (.expr (.string (utf8 "b")))) (utf8 "+")
        (.typeOf (.identifier x))))]
    let a : Scope := ⟨[(x, .string (utf8 "a")), (y, .boolean true)]⟩
    let b : Scope := ⟨[(x, .string (utf8 "a"))]⟩
    a.Agree (Stmt.namesAll program) b ∧ (program.evaluate a).1 = (program.evaluate b).1 ∧
      (program.evaluate a).2.Agree (Stmt.namesAll program) (program.evaluate b).2 ∧
      (program.evaluate b).2 = ⟨[(x, .string (utf8 "ab"))]⟩ ∧
      (program.evaluate a).2.get? y = some (.boolean true) := by
  intro x y program a b
  have hab : a.Agree (Stmt.namesAll program) b := by decide
  obtain ⟨htwo, hone⟩ := evaluate_confined program
  exact ⟨hab, (htwo a b hab).1, (htwo a b hab).2, by decide +kernel, (hone a y).1 (by decide)⟩

end Jolt
