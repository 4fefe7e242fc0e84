import Jolt.Tree

/-!
# Well-formed trees

What the leaves and operators of a tree have to be for its layout to be a source: names are words, strings hold no
quote, numbers are finite and not negative, operators are those of the language, and a text that stands for an operand is
one that a token can have.
-/

namespace Jolt

/-- A comment: angle brackets with no closing one inside. -/
def Text.IsComment (t : Text) : Prop :=
  ∃ w : Text, t = Byte.less :: (w ++ [Byte.greater]) ∧ Byte.greater ∉ w

/-- The operators of sums and products. -/
def binaryOperators : List Text :=
  [utf8 "+", utf8 "-", utf8 "*", utf8 "/"]

/-- The operators of comparisons. -/
def comparisonOperators : List Text :=
  [utf8 "<", utf8 ">", utf8 "=="]

/-- The operators of assignments. -/
def assignmentOperators : List Text :=
  [utf8 "=", utf8 "+=", utf8 "-=", utf8 "*=", utf8 "/="]

/-- The marks that stand alone. The opening parenthesis is not among them: it starts an operand. -/
def marks : List Text :=
  [utf8 ";", utf8 ")", utf8 "\x7b", utf8 "\x7d", utf8 "?", utf8 ":"]

/-- The words that are keywords before a space. -/
def keywords : List Text :=
  [utf8 "out", utf8 "type", utf8 "if"]

/-- The texts other than comments that can stand for an operand. -/
def strays : List Text :=
  binaryOperators ++ comparisonOperators ++ assignmentOperators ++ marks ++ keywords

/-- Whether a statement can be an operand of an assignment. -/
def Stmt.isOperand : Stmt → Bool
  | .expr _ | .output _ | .ifThen _ _ => true
  | _ => false

/-- Whether a statement can be shown by an output. -/
def Stmt.isShown : Stmt → Bool
  | .expr _ | .ifThen _ _ => true
  | _ => false

mutual

/-- The leaves and operators of an expression are those of the language. -/
def Expr.WellFormed : Expr → Prop
  | .number x => ∃ m : Magnitude, x = .finite false m
  | .string s => Byte.quote ∉ s
  | .identifier name => name ≠ [] ∧ ∀ b ∈ name, Text.isLetter b = true
  | .binary left operator right => operator ∈ binaryOperators ∧ left.WellFormed ∧ right.WellFormed
  | .comparison left operator right => operator ∈ comparisonOperators ∧ left.WellFormed ∧ right.WellFormed
  | .ternary condition yes no => condition.WellFormed ∧ yes.WellFormed ∧ no.WellFormed
  | .typeOf operand => operand.WellFormed
  | .assign target operator value => operator ∈ assignmentOperators ∧ (target.isOperand = true ∧ target.WellFormed) ∧
      (value.isOperand = true ∧ value.WellFormed)
  | .unrecognized text => text = [] ∨ Text.IsComment text ∨ text ∈ strays
  | .missing => False

/-- The leaves and operators of a statement are those of the language. A block is no statement of a source. -/
def Stmt.WellFormed : Stmt → Prop
  | .expr e => e.WellFormed
  | .output value => value.isShown = true ∧ value.WellFormed
  | .comment text => Text.IsComment text
  | .ifThen condition body => condition.WellFormed ∧ Stmt.WellFormedAll body
  | .block _ => False

/-- All statements are well-formed. -/
def Stmt.WellFormedAll : List Stmt → Prop
  | [] => True
  | s :: rest => s.WellFormed ∧ Stmt.WellFormedAll rest

end

/-! ## Well-formedness is decidable -/

instance (t : Text) : Decidable t.IsComment :=
  decidable_of_iff (t = Byte.less :: ((t.drop 1).dropLast ++ [Byte.greater]) ∧ Byte.greater ∉ (t.drop 1).dropLast) <| by
    constructor
    · rintro ⟨ht, hw⟩
      exact ⟨_, ht, hw⟩
    · rintro ⟨w, rfl, hw⟩
      simpa using hw

mutual

def Expr.decWellFormed : (e : Expr) → Decidable e.WellFormed
  | .number (.finite false m) => isTrue ⟨m, rfl⟩
  | .number (.finite true _) | .number (.infinite _) | .number .nan => isFalse (by rintro ⟨m, ⟨⟩⟩)
  | .string s => inferInstanceAs (Decidable (Byte.quote ∉ s))
  | .identifier name => decidable_of_iff (name ≠ [] ∧ name.all Text.isLetter = true) (by rw [List.all_eq_true]; rfl)
  | .binary left operator right =>
    have := left.decWellFormed
    have := right.decWellFormed
    inferInstanceAs (Decidable (operator ∈ binaryOperators ∧ left.WellFormed ∧ right.WellFormed))
  | .comparison left operator right =>
    have := left.decWellFormed
    have := right.decWellFormed
    inferInstanceAs (Decidable (operator ∈ comparisonOperators ∧ left.WellFormed ∧ right.WellFormed))
  | .ternary condition yes no =>
    have := condition.decWellFormed
    have := yes.decWellFormed
    have := no.decWellFormed
    inferInstanceAs (Decidable (condition.WellFormed ∧ yes.WellFormed ∧ no.WellFormed))
  | .typeOf operand => operand.decWellFormed
  | .assign target operator value =>
    have := target.decWellFormed
    have := value.decWellFormed
    inferInstanceAs (Decidable (operator ∈ assignmentOperators ∧ (target.isOperand = true ∧ target.WellFormed) ∧
      (value.isOperand = true ∧ value.WellFormed)))
  | .unrecognized text => inferInstanceAs (Decidable (text = [] ∨ Text.IsComment text ∨ text ∈ strays))
  | .missing => inferInstanceAs (Decidable False)

def Stmt.decWellFormed : (s : Stmt) → Decidable s.WellFormed
  | .expr e => e.decWellFormed
  | .output value =>
    have := value.decWellFormed
    inferInstanceAs (Decidable (value.isShown = true ∧ value.WellFormed))
  | .comment text => inferInstanceAs (Decidable (Text.IsComment text))
  | .ifThen condition body =>
    have := condition.decWellFormed
    have := Stmt.decWellFormedAll body
    inferInstanceAs (Decidable (condition.WellFormed ∧ Stmt.WellFormedAll body))
  | .block _ => inferInstanceAs (Decidable False)

def Stmt.decWellFormedAll : (b : List Stmt) → Decidable (Stmt.WellFormedAll b)
  | [] => inferInstanceAs (Decidable True)
  | s :: rest =>
    have := s.decWellFormed
    have := Stmt.decWellFormedAll rest
    inferInstanceAs (Decidable (s.WellFormed ∧ Stmt.WellFormedAll rest))

end

instance : DecidablePred Stmt.WellFormedAll := Stmt.decWellFormedAll

end Jolt
