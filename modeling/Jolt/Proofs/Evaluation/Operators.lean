import Jolt.Evaluation
import Jolt.Proofs.Layout.Parsed

/-!
# Sources use the operators that there are

Arithmetic and comparison give undefined for an operator that is none of theirs. Checked evaluation stops there instead
(`Value.arithmetic?`, `Value.compare?`) and is evaluation otherwise.

Main statement (`parse_wellFormed`): the tree of a source is well-formed, so checked evaluation does not stop in it,
whatever the scope.
-/

namespace Jolt

/-! ## Checked evaluation -/

namespace Value

/-- The four operations on numbers, and no other. -/
def arithmetic? (operator : Text) (x y : Number) : Option Value :=
  if operator = utf8 "+" then some (number (x.add y))
  else if operator = utf8 "-" then some (number (x.sub y))
  else if operator = utf8 "*" then some (number (x.mul y))
  else if operator = utf8 "/" then some (number (x.div y))
  else none

/-- The three comparisons, and no other. -/
def compare? (operator : Text) (a b : Value) : Option Value :=
  if operator = utf8 "<" then some (boolean (less a b))
  else if operator = utf8 ">" then some (boolean (greater a b))
  else if operator = utf8 "==" then some (boolean (looselyEqual a b))
  else none

/-- Numbers are computed with by the four operations. -/
def binary? (operator : Text) (a b : Value) : Option Value :=
  match a, b with
  | number x, number y => arithmetic? operator x y
  | a, b => some (binary operator a b)

/-- Checked arithmetic stops exactly where arithmetic falls through. -/
theorem arithmetic_eq (operator : Text) (x y : Number) :
    arithmetic operator x y = (arithmetic? operator x y).getD undefined := by
  unfold arithmetic arithmetic?
  repeat' split
  all_goals rfl

/-- Checked comparison stops exactly where comparison falls through. -/
theorem compare_eq (operator : Text) (a b : Value) : compare operator a b = (compare? operator a b).getD undefined := by
  unfold compare compare?
  repeat' split
  all_goals rfl

theorem arithmetic?_eq {operator : Text} (h : operator ∈ binaryOperators) (x y : Number) :
    arithmetic? operator x y = some (arithmetic operator x y) := by
  have hsome : (arithmetic? operator x y).isSome = true := by
    simp only [binaryOperators, List.mem_cons, List.not_mem_nil, or_false] at h
    rcases h with rfl | rfl | rfl | rfl <;> rfl
  obtain ⟨v, hv⟩ := Option.isSome_iff_exists.1 hsome
  rw [arithmetic_eq, hv, Option.getD_some]

theorem compare?_eq {operator : Text} (h : operator ∈ comparisonOperators) (a b : Value) :
    compare? operator a b = some (compare operator a b) := by
  have hsome : (compare? operator a b).isSome = true := by
    simp only [comparisonOperators, List.mem_cons, List.not_mem_nil, or_false] at h
    rcases h with rfl | rfl | rfl <;> rfl
  obtain ⟨v, hv⟩ := Option.isSome_iff_exists.1 hsome
  rw [compare_eq, hv, Option.getD_some]

theorem binary?_eq {operator : Text} (h : operator ∈ binaryOperators) (a b : Value) :
    binary? operator a b = some (binary operator a b) := by
  unfold binary?
  split
  · exact arithmetic?_eq h _ _
  · rfl

end Value

namespace Scope

/-- The value that a checked assignment stores under a name. -/
def combined? (scope : Scope) (name operator : Text) (v : Value) : Option Value :=
  match compound? operator with
  | some op => if (scope.value name).isDefined then Value.binary? op (scope.value name) v else some v
  | none => some v

/-- Stores a value under the name that a target is. -/
def assign? (scope : Scope) (target : Stmt) (operator : Text) (v : Value) : Option Scope :=
  match target with
  | .expr (.identifier name) => (scope.combined? name operator v).map (scope.define name)
  | _ => some scope

/-- The operators of compound assignments are among the four operations, whatever is written. -/
theorem mem_of_compound? {operator op : Text} (h : compound? operator = some op) : op ∈ binaryOperators := by
  unfold compound? at h
  repeat' split at h
  all_goals cases h
  all_goals decide

theorem combined?_eq (scope : Scope) (name operator : Text) (v : Value) :
    scope.combined? name operator v = some (scope.combined name operator v) := by
  unfold combined? combined
  cases hop : compound? operator with
  | none => rfl
  | some op =>
    by_cases hd : (scope.value name).isDefined = true
    · simp only [hd, if_true]
      exact Value.binary?_eq (mem_of_compound? hop) _ _
    · simp [hd]

theorem assign?_eq (scope : Scope) (target : Stmt) (operator : Text) (v : Value) :
    scope.assign? target operator v = some (scope.assign target operator v) := by
  cases target with
  | expr e =>
    cases e with
    | identifier name => rw [assign?, assign, combined?_eq, Option.map_some]
    | _ => rfl
  | _ => rfl

end Scope

/-- A checked run over a scope. It stops where it would need an operator that is not known. -/
abbrev Checked (α : Type) := OptionT (StateT Scope Option) α

namespace Checked

/-- Goes on with what is known, and stops where nothing is. -/
def known {α : Type} (x? : Option α) : Checked α := fun scope =>
  x?.map fun x => (some x, scope)

/-- Stores a value under the name that a target is, as long as the operator is known. -/
def assign (target : Stmt) (operator : Text) (v : Value) : Checked Unit := fun scope =>
  (scope.assign? target operator v).map fun after => (some (), after)

end Checked

mutual

/-- Evaluates an expression as long as its operators are known. -/
def Expr.eval? : Expr → Checked Value
  | .number x => return .number x
  | .string s => return .string s
  | .identifier name => return (← get).value name
  | .binary left operator right => do
    let a ← left.eval?
    let b ← right.eval?
    Checked.known (Value.binary? operator a b)
  | .comparison left operator right => do
    let a ← left.eval?
    let b ← right.eval?
    Checked.known (Value.compare? operator a b)
  | .ternary condition yes no => do
    let c ← condition.eval?
    if c.truthy then yes.eval? else no.eval?
  | .typeOf operand => do
    let v ← operand.eval?
    return .string (← v.typeName?.getM)
  | .assign target operator value => do
    let r ← value.run?
    Checked.assign target operator r.unwrap
    return .undefined
  | .unrecognized _ => return .undefined
  | .missing => return .undefined

/-- Runs a statement as long as its operators are known. -/
def Stmt.run? : Stmt → Checked Result
  | .expr e => do
    let v ← e.eval?
    return if e.isAssign then .suppressed else .plain v
  | .output (.expr e) => do
    let v ← e.eval?
    return .displayable v
  | .output _ => return .displayable .undefined
  | .comment _ => return .suppressed
  | .ifThen condition body => do
    let c ← condition.eval?
    if c.truthy then
      let results ← Stmt.runAll? body
      return .buffered results
    else return .suppressed
  | .block body => do
    let results ← Stmt.runAll? body
    return .buffered results

/-- Runs statements as long as their operators are known. -/
def Stmt.runAll? : List Stmt → Checked (List Result)
  | [] => return []
  | s :: rest => do
    let r ← s.run?
    let more ← Stmt.runAll? rest
    return r.spread ++ more

end

/-- Runs a program as long as its operators are known. -/
def Program.evaluate? : Program → Checked (List Result)
  | [] => return []
  | s :: rest => do
    let r ← s.run?
    let more ← Program.evaluate? rest
    return r.flatten ++ more

example (x y : Number) (scope : Scope) :
    Program.evaluate? [.output (.expr (.binary (.number x) (utf8 "^") (.number y)))] scope = none := rfl

/-! ## Well-formed trees are evaluated without a stop -/

/-- The checked run does not stop and is the run. -/
def Checked.Follows {α : Type} (c : Checked α) (m : Run α) : Prop :=
  ∀ scope, c scope = some (m scope)

namespace Checked.Follows

variable {α β : Type} {c : Checked α} {m : Run α} {k? : α → Checked β} {k : α → Run β}

theorem pure (x : α) : Follows (Pure.pure x) (Pure.pure x) :=
  fun _ => rfl

theorem bind (hc : c.Follows m) (hk : ∀ x, (k? x).Follows (k x)) : (c >>= k?).Follows (m >>= k) := by
  intro scope
  have hstep : (c >>= k?) scope = (c scope).bind fun given => given.1.elim (some (none, given.2)) (k? · given.2) := by
    simp only [Bind.bind, OptionT.bind, OptionT.mk, StateT.bind]
    congr
    funext given
    cases given.1 <;> rfl
  rw [hstep, hc scope, Option.bind_some]
  rcases hm : m scope with ⟨_ | x, after⟩
  · rw [Run.bind_of_none hm]
    rfl
  · rw [Run.bind_of_some hm]
    exact hk x after

theorem ofSome {x? : Option α} {x : α} (h : x? = some x) : (known x?).Follows (Pure.pure x) := by
  intro scope
  rw [h]
  rfl

end Checked.Follows

mutual

theorem Expr.follows_eval? : (e : Expr) → e.WellFormed → e.eval?.Follows e.eval
  | .number _, _ | .string _, _ | .identifier _, _ | .unrecognized _, _ => fun _ => rfl
  | .binary left operator right, ⟨ho, hl, hr⟩ =>
    (left.follows_eval? hl).bind fun a => (right.follows_eval? hr).bind fun b => .ofSome (Value.binary?_eq ho a b)
  | .comparison left operator right, ⟨ho, hl, hr⟩ =>
    (left.follows_eval? hl).bind fun a => (right.follows_eval? hr).bind fun b => .ofSome (Value.compare?_eq ho a b)
  | .ternary condition yes no, ⟨hc, hy, hn⟩ => (condition.follows_eval? hc).bind fun c => by
    split
    · exact yes.follows_eval? hy
    · exact no.follows_eval? hn
  | .typeOf operand, h => (operand.follows_eval? h).bind fun v => by
    cases v <;> exact fun _ => rfl
  | .assign target operator value, ⟨_, _, _, hv⟩ => (value.follows_run? hv).bind fun r scope => by
    show ((scope.assign? target operator r.unwrap).map fun after => (some (), after)).bind _ = _
    rw [Scope.assign?_eq]
    rfl
  | .missing, h => h.elim

theorem Stmt.follows_run? : (s : Stmt) → s.WellFormed → s.run?.Follows s.run
  | .expr e, h => (e.follows_eval? h).bind fun _ => .pure _
  | .output (.expr e), h => (e.follows_eval? h.2).bind fun _ => .pure _
  | .output (.output _), _ | .output (.comment _), _ | .output (.ifThen _ _), _ | .output (.block _), _
  | .comment _, _ => .pure _
  | .ifThen condition body, ⟨hc, hb⟩ => (condition.follows_eval? hc).bind fun c => by
    split
    · exact (Stmt.follows_runAll? body hb).bind fun _ => .pure _
    · exact .pure _
  | .block _, h => h.elim

theorem Stmt.follows_runAll? : (body : List Stmt) → Stmt.WellFormedAll body →
    (Stmt.runAll? body).Follows (Stmt.runAll body)
  | [], _ => .pure _
  | s :: rest, h => (s.follows_run? h.1).bind fun _ => (Stmt.follows_runAll? rest h.2).bind fun _ => .pure _

end

theorem Program.follows_evaluate? (p : Program) (h : Stmt.WellFormedAll p) : p.evaluate?.Follows p.evaluate := by
  induction p with
  | nil => exact .pure _
  | cons s rest ih => exact (s.follows_run? h.1).bind fun _ => (ih h.2).bind fun _ => .pure _

/-! ## Sources -/

/-- The tree of a source is well-formed at every depth. So, whatever the scope, evaluating it reaches no operator that
arithmetic or comparison does not know. -/
theorem parse_wellFormed (source file : Text) (p : Program) (h : parse source file = .ok p) :
    Stmt.WellFormedAll p ∧ ∀ scope, p.evaluate? scope = some (p.evaluate scope) := by
  obtain ⟨ts, hs⟩ := Token.exists_scans .start source
  have hw : Stmt.WellFormedAll p := ((Grammar.parse_eq_ok_iff hs).1 h).admits hs.genuine
  exact ⟨hw, p.follows_evaluate? hw⟩

/-- Operators of all sorts, one of them in parentheses, and a separator in the place of an operand. -/
theorem parse_wellFormed_separator : ∃ p,
    parse (utf8 "n += 0 * (x = y) > \"4\" ? type x : out; if n == ; \x7b <done> \x7d") [] = .ok p ∧
      Stmt.WellFormedAll p ∧ ∀ scope, p.evaluate? scope = some (p.evaluate scope) := by
  have h : parse (utf8 "n += 0 * (x = y) > \"4\" ? type x : out; if n == ; \x7b <done> \x7d") [] = .ok
      [.expr (.assign (.expr (.identifier (utf8 "n"))) (utf8 "+=")
        (.expr (.ternary
          (.comparison
            (.binary (.number (.zero false)) (utf8 "*")
              (.assign (.expr (.identifier (utf8 "x"))) (utf8 "=") (.expr (.identifier (utf8 "y")))))
            (utf8 ">") (.string (utf8 "4")))
          (.typeOf (.identifier (utf8 "x"))) (.identifier (utf8 "out"))))),
        .ifThen (.comparison (.identifier (utf8 "n")) (utf8 "==") (.unrecognized (utf8 ";"))) [.comment (utf8 "<done>")]] := by
    decide +kernel
  exact ⟨_, h, parse_wellFormed _ _ _ h⟩

end Jolt
