import Jolt.Number
import Jolt.Text

/-!
# Syntax trees

A program is a list of statements. Every expression is a statement too, and an assignment, which is an expression, has
statements as its two sides. Operators are kept as they were written. A tree that was built by hand may lack a child
(`Expr.missing`) and may have a block as a statement; no source gives such a tree. A whole program in the place of a
statement, which would not be run and give a plain undefined, is left out.
-/

namespace Jolt

mutual

/-- An expression. -/
inductive Expr where
  | number (value : Number)
  | string (value : Text)
  | identifier (name : Text)
  | binary (left : Expr) (operator : Text) (right : Expr)
  | comparison (left : Expr) (operator : Text) (right : Expr)
  | ternary (condition yes no : Expr)
  | typeOf (operand : Expr)
  | assign (target : Stmt) (operator : Text) (value : Stmt)
  /-- A token that can start no expression, kept in the place of one. At the end of the input its text is empty. -/
  | unrecognized (text : Text)
  | missing

/-- A statement. -/
inductive Stmt where
  | expr (e : Expr)
  | output (value : Stmt)
  | comment (text : Text)
  | ifThen (condition : Expr) (body : List Stmt)
  | block (body : List Stmt)

end

instance : Inhabited Expr := ⟨.missing⟩
instance : Inhabited Stmt := ⟨.expr .missing⟩

/-- A program is its statements in order. -/
abbrev Program := List Stmt

/-! ## Equality is decidable -/

mutual

def Expr.decEq (a b : Expr) : Decidable (a = b) := by
  cases a <;> cases b
  case number.number x y => exact decidable_of_iff (x = y) (by simp)
  case string.string x y => exact decidable_of_iff (x = y) (by simp)
  case identifier.identifier x y => exact decidable_of_iff (x = y) (by simp)
  case binary.binary l o r l' o' r' =>
    have := Expr.decEq l l'
    have := Expr.decEq r r'
    exact decidable_of_iff (l = l' ∧ o = o' ∧ r = r') (by simp)
  case comparison.comparison l o r l' o' r' =>
    have := Expr.decEq l l'
    have := Expr.decEq r r'
    exact decidable_of_iff (l = l' ∧ o = o' ∧ r = r') (by simp)
  case ternary.ternary c y n c' y' n' =>
    have := Expr.decEq c c'
    have := Expr.decEq y y'
    have := Expr.decEq n n'
    exact decidable_of_iff (c = c' ∧ y = y' ∧ n = n') (by simp)
  case typeOf.typeOf x y =>
    have := Expr.decEq x y
    exact decidable_of_iff (x = y) (by simp)
  case assign.assign t o v t' o' v' =>
    have := Stmt.decEq t t'
    have := Stmt.decEq v v'
    exact decidable_of_iff (t = t' ∧ o = o' ∧ v = v') (by simp)
  case unrecognized.unrecognized x y => exact decidable_of_iff (x = y) (by simp)
  case missing.missing => exact isTrue rfl
  all_goals exact isFalse (by simp)

def Stmt.decEq (a b : Stmt) : Decidable (a = b) := by
  cases a <;> cases b
  case expr.expr x y =>
    have := Expr.decEq x y
    exact decidable_of_iff (x = y) (by simp)
  case output.output x y =>
    have := Stmt.decEq x y
    exact decidable_of_iff (x = y) (by simp)
  case comment.comment x y => exact decidable_of_iff (x = y) (by simp)
  case ifThen.ifThen c b c' b' =>
    have := Expr.decEq c c'
    have := Stmt.decEqList b b'
    exact decidable_of_iff (c = c' ∧ b = b') (by simp)
  case block.block b b' =>
    have := Stmt.decEqList b b'
    exact decidable_of_iff (b = b') (by simp)
  all_goals exact isFalse (by simp)

def Stmt.decEqList (a b : List Stmt) : Decidable (a = b) := by
  cases a <;> cases b
  case nil.nil => exact isTrue rfl
  case cons.cons s r s' r' =>
    have := Stmt.decEq s s'
    have := Stmt.decEqList r r'
    exact decidable_of_iff (s = s' ∧ r = r') (by simp)
  all_goals exact isFalse (by simp)

end

instance : DecidableEq Expr := Expr.decEq
instance : DecidableEq Stmt := Stmt.decEq

end Jolt
