import Jolt.Proofs.Grammar.Placeholders
import Jolt.Proofs.Layout.Tokens

/-!
# Which layouts can be read back

Two conditions on trees. A tree is regular if it keeps what every source guarantees: a placeholder that is a keyword does
not stand where the grammar would take it for the keyword, and a tree that ran into the end of the input stands at the
right edge. A tree is faithful if its layout does not lose anything to the placeholders that are left: none of them is
taken for a comment, a separator, the end of a body or an assignment to the body before it, and none is left out.
-/

namespace Jolt

open Token (Kind)
open Grammar (Form Chain)

/-! ## Places -/

/-- The level that a form asks of an expression. -/
def Grammar.Form.place : Form → Level
  | .literal => Level.literal
  | .links .product | .chain .product => Level.product
  | .links .sum | .chain .sum => Level.sum
  | .links .comparison | .chain .comparison => Level.comparison
  | .typed => Level.type
  | .ternary | .conditional | .output => Level.ternary
  | _ => Level.assignment

/-- The kinds of the keywords. -/
def keywordKinds : List Kind :=
  [.type, .condition, .output]

/-- The keywords that a form takes off its front. -/
def Grammar.Form.taken : Form → List Kind
  | .literal | .links .product | .chain .product | .links .sum | .chain .sum | .links .comparison | .chain .comparison => []
  | .typed | .ternary => [.type]
  | .conditional => [.type, .condition]
  | _ => keywordKinds

theorem Grammar.Form.place_le (f : Form) : f.place ≤ 6 := by
  cases f with
  | links c | chain c => cases c <;> decide
  | items b => cases b <;> decide
  | _ => decide

theorem Grammar.Form.type_mem_taken {f : Form} : f.place ≤ 2 → Kind.type ∈ f.taken := by
  cases f with
  | links c | chain c => cases c <;> decide
  | items b => cases b <;> decide
  | _ => decide

theorem Grammar.Form.taken_of_place {f : Form} : f.place = 0 → Kind.condition ∈ f.taken ∧ Kind.output ∈ f.taken := by
  cases f with
  | links c | chain c => cases c <;> decide
  | items b => cases b <;> decide
  | _ => decide

/-! ## Fronts -/

mutual

/-- The kind of the placeholder that an expression starts with in a place of level `least`, if it starts with one. -/
def Expr.front (least : Level) (e : Expr) : Option Kind :=
  if e.level < least then none
  else match e with
    | .binary left operator _ => left.front (Level.ofOperator operator)
    | .comparison left _ _ => left.front Level.comparison
    | .ternary condition _ _ => condition.front Level.type
    | .assign target _ _ => target.front Level.ternary
    | .unrecognized text => if text.isEmpty then none else some (Token.kindOf text)
    | _ => none

/-- The kind of the placeholder that a statement starts with, if it starts with one. -/
def Stmt.front (least : Level) : Stmt → Option Kind
  | .expr e => e.front least
  | _ => none

end

/-- Read by a form, the expression keeps the placeholder at its front. In parentheses it is read by the loosest form. -/
def Expr.Opens (f : Form) (e : Expr) : Prop :=
  if e.level < f.place then ∀ k ∈ e.front Level.assignment, k ∉ keywordKinds else ∀ k ∈ e.front f.place, k ∉ f.taken

/-- Read by a form, the statement keeps the placeholder at its front. -/
def Stmt.Opens (f : Form) : Stmt → Prop
  | .expr e => e.Opens f
  | _ => True

/-! ## Regular trees -/

/-- The chain that an operator of sums and products belongs to. -/
def Grammar.Chain.ofOperator (operator : Text) : Chain :=
  if operator = utf8 "*" ∨ operator = utf8 "/" then .product else .sum

/-- An expression that can be read by a form with something behind it. -/
def Expr.Leads (f : Form) (e : Expr) : Prop :=
  e.Opens f ∧ e.incomplete = false

/-- An expression that can be read by a form. If it runs into the end of the input it is not in parentheses. -/
def Expr.Ends (f : Form) (e : Expr) : Prop :=
  e.Opens f ∧ (e.incomplete = true → f.place ≤ e.level)

mutual

/-- Keywords and the end of the input are where a source can have them. -/
def Expr.Regular : Expr → Prop
  | .binary left operator right =>
    left.Regular ∧ left.Leads (.links (Chain.ofOperator operator)) ∧
      right.Regular ∧ right.Ends (Chain.ofOperator operator).operand
  | .comparison left _ right =>
    left.Regular ∧ left.Leads (.links .comparison) ∧ right.Regular ∧ right.Ends (.chain .sum)
  | .ternary condition yes no =>
    condition.Regular ∧ condition.Leads .typed ∧ yes.Regular ∧ yes.Ends .typed ∧ no.Regular ∧ no.Ends .typed ∧
      (yes.incomplete = true → no = .unrecognized [])
  | .typeOf operand => operand.Regular ∧ operand.Ends (.chain .comparison)
  | .assign target _ value => target.Regular ∧ target.Opens .output ∧ target.incomplete = false ∧
      value.Regular ∧ value.Opens .output
  | _ => True

/-- Keywords and the end of the input are where a source can have them. -/
def Stmt.Regular : Stmt → Prop
  | .expr e => e.Regular
  | .output value => value.Regular ∧ value.Opens .conditional
  | .comment _ => True
  | .ifThen condition body =>
    condition.Regular ∧ condition.Leads (.chain .assignment) ∧ Stmt.RegularAll true body
  | .block body => Stmt.RegularAll false body

/-- Only the last statement of a program runs into the end of the input, and none of a body. -/
def Stmt.RegularAll (inBody : Bool) : List Stmt → Prop
  | [] => True
  | s :: rest => s.Regular ∧ s.Opens .statement ∧ (s.incomplete = true → inBody = false ∧ rest = []) ∧
      Stmt.RegularAll inBody rest

end

/-! ## Faithful trees -/

/-- Whether a statement is an assignment that ran into the end of the input. As an operand it is put in parentheses, and
the closing one is taken for the missing operand. -/
def Stmt.isCutShort : Stmt → Bool
  | .expr (.assign _ _ value) => value.incomplete
  | _ => false

/-- Whether a statement is a conditional body. -/
def Stmt.isIf : Stmt → Bool
  | .ifThen _ _ => true
  | _ => false

/-- The kinds of tokens at the front of a line that are not read as an operand: a comment, a separator, in a body its
closing brace, behind a conditional body an assignment to it. -/
def misread (inBody afterIf : Bool) : List Kind :=
  [.comment, .endOfLine] ++ (if inBody then [.closeBlock] else []) ++ (if afterIf then [.equals] else [])

/-- Whether the line of a statement starts with what the statement starts with. -/
def Stmt.stands (inBody afterIf : Bool) (s : Stmt) : Bool :=
  s ≠ .expr (.unrecognized []) && (s.front Level.assignment).all fun k => k ∉ misread inBody afterIf

mutual

/-- Whether the layout of an expression keeps all of it. -/
def Expr.isFaithful : Expr → Bool
  | .binary left _ right => left.isFaithful && right.isFaithful
  | .comparison left _ right => left.isFaithful && right.isFaithful
  | .ternary condition yes no =>
    condition.isFaithful && yes.isFaithful && no.isFaithful && (!yes.incomplete || yes = .unrecognized [])
  | .typeOf operand => operand.isFaithful
  | .assign target _ value => target.isFaithful && value.isFaithful && !value.isCutShort
  | _ => true

/-- Whether the layout of a statement keeps all of it. -/
def Stmt.isFaithful : Stmt → Bool
  | .expr e => e.isFaithful
  | .output value => value.isFaithful && !value.isCutShort
  | .comment _ => true
  | .ifThen condition body => condition.isFaithful && Stmt.areFaithful true false body
  | .block body => Stmt.areFaithful false false body

/-- Whether the layout of statements keeps all of them. -/
def Stmt.areFaithful (inBody afterIf : Bool) : List Stmt → Bool
  | [] => true
  | s :: rest => s.stands inBody afterIf && s.isFaithful && Stmt.areFaithful inBody s.isIf rest

end

/-! ## The end of the input -/

mutual

/-- Only an empty placeholder runs into the end of the input. -/
theorem Expr.nil_mem_placeholders (e : Expr) (h : e.incomplete = true) : [] ∈ e.placeholders := by
  cases e with
  | binary l o r => exact List.mem_append_right _ (r.nil_mem_placeholders h)
  | comparison l o r => exact List.mem_append_right _ (r.nil_mem_placeholders h)
  | ternary c y n => exact List.mem_append_right _ (n.nil_mem_placeholders h)
  | typeOf e => exact e.nil_mem_placeholders h
  | assign t o v => exact List.mem_append_right _ (v.nil_mem_placeholders h)
  | unrecognized text => simp [Expr.placeholders, List.isEmpty_iff.1 h]
  | _ => cases h

theorem Stmt.nil_mem_placeholders (s : Stmt) (h : s.incomplete = true) : [] ∈ s.placeholders := by
  cases s with
  | expr e => exact e.nil_mem_placeholders h
  | output v => exact v.nil_mem_placeholders h
  | _ => cases h

end

end Jolt
