import Jolt.Grammar
import Jolt.Scope
import Jolt.Value.Operators

/-!
# Evaluation

A statement runs over a scope and gives a `Result`. A taken `if` gives the results of its body in a buffer; a body splices
the buffers of its statements and drops what is suppressed, so buffers never nest. A program flattens the buffers of its
statements, and drops what is suppressed in them too.

To ask the absent value for its type ends the run there (`Run`).
-/

namespace Jolt

/-- What running a statement gives. -/
inductive Result where
  /-- Nothing to show: assignments, comments, conditions that do not hold. -/
  | suppressed
  /-- The value of an expression statement. -/
  | plain (v : Value)
  /-- The value of an output statement. -/
  | displayable (v : Value)
  /-- The results of a body. -/
  | buffered (results : List Result)
  /-- A result of a kind that nothing here produces; it shows as undefined. -/
  | unknown

instance : Inhabited Result := ⟨.suppressed⟩

namespace Result

/-- The name of the kind of a result. -/
def kindName : Result → Text
  | suppressed => utf8 "suppressed"
  | plain _ => utf8 "plain"
  | displayable _ => utf8 "displayable"
  | buffered _ => utf8 "buffered"
  | unknown => utf8 "unknown"

/-- The value of a result, undefined where it has none. -/
def unwrap : Result → Value
  | plain .absent | displayable .absent => .undefined
  | plain v | displayable v => v
  | _ => .undefined

theorem unwrap_ne_absent (r : Result) : r.unwrap ≠ .absent := by
  unfold unwrap
  split
  · simp
  · simp
  · assumption
  · assumption
  · simp

/-- Whether an output statement made the result. -/
def isOutput : Result → Bool
  | displayable _ => true
  | _ => false

/-- Whether there is nothing to show. -/
def isSuppressed : Result → Bool
  | suppressed => true
  | _ => false

/-- What a result adds to the results of a body. -/
def spread : Result → List Result
  | suppressed => []
  | buffered results => results
  | r => [r]

/-- What a result adds to the results of a program. -/
def flatten : Result → List Result
  | suppressed => []
  | buffered results => results.filter (!·.isSuppressed)
  | r => [r]

mutual

/-- The text of a result; the results of a buffer stand on lines of their own. -/
def text : Result → Text
  | suppressed => []
  | buffered results => Text.joinWith (utf8 "\n") (texts results)
  | r => r.unwrap.text

/-- The texts of results. -/
def texts : List Result → List Text
  | [] => []
  | r :: rs => text r :: texts rs

end

end Result

/-- The operator that a compound assignment applies. -/
def compound? (operator : Text) : Option Text :=
  if operator = utf8 "+=" then some (utf8 "+")
  else if operator = utf8 "-=" then some (utf8 "-")
  else if operator = utf8 "*=" then some (utf8 "*")
  else if operator = utf8 "/=" then some (utf8 "/")
  else none

namespace Scope

/-- The value that an assignment stores under a name. A compound operator combines with a value that is there. -/
def combined (scope : Scope) (name operator : Text) (v : Value) : Value :=
  match compound? operator with
  | some op => if (scope.value name).isDefined then .binary op (scope.value name) v else v
  | none => v

theorem combined_ne_absent {v : Value} (h : v ≠ .absent) (scope : Scope) (name operator : Text) :
    scope.combined name operator v ≠ .absent := by
  unfold combined
  split
  · split
    · exact Value.binary_ne_absent _ _ _
    · exact h
  · exact h

/-- Stores a value under the name that a target is. Any other target names no variable. -/
def assign (scope : Scope) (target : Stmt) (operator : Text) (v : Value) : Scope :=
  match target with
  | .expr (.identifier name) => scope.define name (scope.combined name operator v)
  | _ => scope

end Scope

/-- A run over a scope. It gives something, unless it ends early, and leaves a scope in both cases. -/
abbrev Run (α : Type) := OptionT (StateM Scope) α

namespace Run

variable {α β : Type} {m : Run α} {k : α → Run β} {scope after : Scope} {x : α}

theorem bind_of_some (h : m scope = (some x, after)) : (m >>= k) scope = k x after := by
  simp only [bind, OptionT.bind, OptionT.mk, StateT.bind, h]

theorem bind_of_none (h : m scope = (none, after)) : (m >>= k) scope = (none, after) := by
  simp only [bind, OptionT.bind, OptionT.mk, StateT.bind, h]
  rfl

/-- What comes to its end has come to the end of its first part. -/
theorem exists_of_bind {y : β} (h : (m >>= k) scope = (some y, after)) :
    ∃ x between, m scope = (some x, between) ∧ k x between = (some y, after) := by
  rcases hm : m scope with ⟨_ | x, between⟩
  · rw [bind_of_none hm] at h
    cases h
  · rw [bind_of_some hm] at h
    exact ⟨x, between, rfl, h⟩

end Run

/-- Whether an expression is an assignment, which shows nothing as a statement. -/
def Expr.isAssign : Expr → Bool
  | .assign _ _ _ => true
  | _ => false

mutual

/-- The value of an expression. Operands are evaluated from the left. -/
def Expr.eval : Expr → Run Value
  | .number x => return .number x
  | .string s => return .string s
  | .identifier name => return (← get).value name
  | .binary left operator right => do
    let a ← left.eval
    let b ← right.eval
    return .binary operator a b
  | .comparison left operator right => do
    let a ← left.eval
    let b ← right.eval
    return .compare operator a b
  | .ternary condition yes no => do
    let c ← condition.eval
    if c.truthy then yes.eval else no.eval
  | .typeOf operand => do
    let v ← operand.eval
    return .string (← v.typeName?.getM)
  | .assign target operator value => do
    let r ← value.run
    modify (·.assign target operator r.unwrap)
    return .undefined
  | .unrecognized _ => return .undefined
  | .missing => return .undefined

/-- The result of a statement. The operand of an output that is no expression is not run. -/
def Stmt.run : Stmt → Run Result
  | .expr e => do
    let v ← e.eval
    return if e.isAssign then .suppressed else .plain v
  | .output (.expr e) => do
    let v ← e.eval
    return .displayable v
  | .output _ => return .displayable .undefined
  | .comment _ => return .suppressed
  | .ifThen condition body => do
    let c ← condition.eval
    if c.truthy then
      let results ← Stmt.runAll body
      return .buffered results
    else return .suppressed
  | .block body => do
    let results ← Stmt.runAll body
    return .buffered results

/-- The results of statements in order, without buffers. -/
def Stmt.runAll : List Stmt → Run (List Result)
  | [] => return []
  | s :: rest => do
    let r ← s.run
    let more ← Stmt.runAll rest
    return r.spread ++ more

end

/-- Runs a program: its results in order. -/
def Program.evaluate : Program → Run (List Result)
  | [] => return []
  | s :: rest => do
    let r ← s.run
    let more ← Program.evaluate rest
    return r.flatten ++ more

/-- Reads and runs a source. One that does not parse leaves the scope as it is. -/
def emit (source file : Text) : Run (Except Diagnostic (List Result)) :=
  match parse source file with
  | .error d => return .error d
  | .ok program => return .ok (← program.evaluate)

end Jolt
