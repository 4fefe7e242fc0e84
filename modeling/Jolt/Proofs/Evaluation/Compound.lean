import Jolt.Proofs.Evaluation.Frame
import Jolt.Proofs.Tree.WellFormed

/-!
# Compound assignment

An assignment evaluates its right side first and reads its target afterwards; an operator reads its left side first. Where the
right side does not assign the target both read the same (`Expr.value_eval`), so a compound assignment is the assignment
that it abbreviates (`Stmt.run_compound`).
-/

namespace Jolt

theorem compound?_append {op : Text} (h : op ∈ binaryOperators) : compound? (op ++ utf8 "=") = some op := by
  simp only [binaryOperators, List.mem_cons, List.not_mem_nil, or_false] at h
  rcases h with rfl | rfl | rfl | rfl <;> decide

/-- What is not a target of an expression is the same before and after it. -/
theorem Expr.value_eval {e : Expr} {name : Text} (h : name ∉ e.targets) (scope : Scope) :
    (e.eval scope).2.value name = scope.value name := by
  rw [Scope.value, (e.binds_eval (List.Subset.refl _) scope).get?_eq h, Scope.value]

/-- The assignment of an expression to a name. -/
def Stmt.assignment (name operator : Text) (e : Expr) : Stmt :=
  .expr (.assign (.expr (.identifier name)) operator (.expr e))

/-- An assignment as an expression has the value that it has as a statement. -/
theorem Expr.unwrap_run {e : Expr} {scope after : Scope} {v : Value} (h : e.eval scope = (some v, after)) :
    (if e.isAssign then Result.suppressed else .plain v).unwrap = (Result.plain v).unwrap := by
  cases e with
  | assign target operator value =>
    obtain ⟨r, between, -, hrest⟩ := Run.exists_of_bind h
    cases hrest
    rfl
  | _ => rfl

/-- An assignment whose right side comes to its end. -/
theorem Stmt.run_assignment {e : Expr} {scope after : Scope} {v : Value} (h : e.eval scope = (some v, after))
    (name operator : Text) : (Stmt.assignment name operator e).run scope =
      (some .suppressed, after.define name (after.combined name operator (Result.plain v).unwrap)) := by
  have hvalue : (Stmt.expr e).run scope = (some (if e.isAssign then .suppressed else .plain v), after) :=
    Run.bind_of_some h
  have hassign : (Expr.assign (.expr (.identifier name)) operator (.expr e)).eval scope =
      (some .undefined, after.define name (after.combined name operator (Result.plain v).unwrap)) := by
    rw [← Expr.unwrap_run h, Expr.eval, Run.bind_of_some hvalue]
    rfl
  rw [assignment, Stmt.run, Run.bind_of_some hassign]
  rfl

/-- An assignment whose right side ends early. -/
theorem Stmt.run_assignment_of_none {e : Expr} {scope after : Scope} (h : e.eval scope = (none, after))
    (name operator : Text) : (Stmt.assignment name operator e).run scope = (none, after) := by
  have hvalue : (Stmt.expr e).run scope = (none, after) := Run.bind_of_none h
  have hassign : (Expr.assign (.expr (.identifier name)) operator (.expr e)).eval scope = (none, after) := by
    rw [Expr.eval, Run.bind_of_none hvalue]
  rw [assignment, Stmt.run, Run.bind_of_none hassign]

theorem Value.binary_unwrap (operator : Text) (a v : Value) :
    Value.binary operator a (Result.plain v).unwrap = Value.binary operator a v := by
  cases v <;> cases a <;> simp [Result.unwrap, Value.binary, Value.isTextual]

theorem Result.unwrap_plain {v : Value} (h : v ≠ .absent) : (Result.plain v).unwrap = v := by
  cases v <;> first | rfl | exact absurd rfl h

/-- A compound assignment to a name that its right side does not assign combines with the value of the name, where it is
bound to one other than undefined, and is a plain assignment elsewhere. -/
theorem Stmt.run_compound (scope : Scope) (name op : Text) (e : Expr) (hop : op ∈ binaryOperators)
    (hname : name ∉ e.targets) :
    (∀ v, scope.get? name = some v → v ≠ .undefined → v ≠ .absent →
      (assignment name (op ++ utf8 "=") e).run scope =
        (assignment name (utf8 "=") (.binary (.identifier name) op e)).run scope) ∧
    (scope.get? name = none ∨ scope.get? name = some .undefined ∨ scope.get? name = some .absent →
      (assignment name (op ++ utf8 "=") e).run scope = (assignment name (utf8 "=") e).run scope) := by
  have hread : (Expr.identifier name).eval scope = (some (scope.value name), scope) := rfl
  rcases he : e.eval scope with ⟨_ | v, after⟩
  · -- the right side ends early, and the target is not read after it
    have hbinary : (Expr.binary (.identifier name) op e).eval scope = (none, after) := by
      rw [Expr.eval, Run.bind_of_some hread, Run.bind_of_none he]
    constructor
    · intro v hget hundefined habsent
      rw [run_assignment_of_none he, run_assignment_of_none hbinary]
    · intro hget
      rw [run_assignment_of_none he, run_assignment_of_none he]
  · have hkept : after.value name = scope.value name := by
      have hvalue := Expr.value_eval hname scope
      rwa [he] at hvalue
    have hplain : ∀ w, after.combined name (utf8 "=") w = w := fun _ => rfl
    have hcombined : ∀ w, after.combined name (op ++ utf8 "=") w =
        if (scope.value name).isDefined then .binary op (scope.value name) w else w := by
      intro w
      rw [Scope.combined, compound?_append hop, hkept]
    have hbinary : (Expr.binary (.identifier name) op e).eval scope =
        (some (.binary op (scope.value name) v), after) := by
      rw [Expr.eval, Run.bind_of_some hread, Run.bind_of_some he]
      rfl
    constructor
    · intro w hget hundefined habsent
      have hvalue : scope.value name = w := by rw [Scope.value, hget]; rfl
      have hdefined : w.isDefined = true := by cases w <;> first | rfl | contradiction
      rw [run_assignment he, run_assignment hbinary, hplain, hcombined, hvalue, if_pos hdefined, Value.binary_unwrap,
        Result.unwrap_plain (Value.binary_ne_absent _ _ _)]
    · intro hget
      have hundefined : (scope.value name).isDefined = false := by
        rcases hget with hget | hget | hget <;> rw [Scope.value, hget] <;> rfl
      rw [run_assignment he, run_assignment he, hplain, hcombined, if_neg (by rw [hundefined]; decide)]

/-- The right side of `x += ((y = 5) ? 1 : y)` binds another name. -/
theorem Stmt.run_compound_binding :
    let x := utf8 "x"
    let y := utf8 "y"
    let z := utf8 "z"
    let scope : Scope := ⟨[(x, .number (.ofNat 2))]⟩
    let e : Expr := .ternary (.assign (.expr (.identifier y)) (utf8 "=") (.expr (.number (.ofNat 5)))) (.number (.ofNat 1))
      (.identifier y)
    (assignment x (utf8 "+" ++ utf8 "=") e).run scope =
        (assignment x (utf8 "=") (.binary (.identifier x) (utf8 "+") e)).run scope ∧
      ((assignment x (utf8 "+" ++ utf8 "=") e).run scope).2 = ⟨[(x, .number (.ofNat 7)), (y, .number (.ofNat 5))]⟩ ∧
      (assignment z (utf8 "+" ++ utf8 "=") e).run scope = (assignment z (utf8 "=") e).run scope := by
  intro x y z scope e
  refine ⟨?_, by decide +kernel, ?_⟩
  · exact (run_compound scope x (utf8 "+") e (by decide) (by decide)).1 _ rfl (by decide) (by decide)
  · exact (run_compound scope z (utf8 "+") e (by decide) (by decide)).2 (.inl rfl)

end Jolt
