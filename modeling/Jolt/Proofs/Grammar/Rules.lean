import Jolt.Grammar

/-!
# The rules of the grammar

`Reads ending f ts s rest` says, by rules and without a bound, that the form `f` takes the tree `s` off the front of the
tokens `ts` and leaves `rest`; `ending` is the text of the token that ends the input. Each rule carries the look at the
next token that makes its level take that way and no other.

Trees of all forms are statements: an expression is the statement it makes, and a list of statements is a block.
-/

namespace Jolt.Grammar

open Token (Kind)

/-! ## Forms -/

/-- The levels that join operands by operators, from tight to loose. -/
inductive Chain where
  | product
  | sum
  | comparison
  | assignment
deriving DecidableEq

/-- What can be read. `links c` is a chain that may go on, `chain c` one that has come to its end; `items true` are the
statements of a body with its brace, `items false` those up to the end of the input. -/
inductive Form where
  | literal
  | links (c : Chain)
  | chain (c : Chain)
  | typed
  | ternary
  | conditional
  | output
  | statement
  | items (inBody : Bool)
deriving DecidableEq

/-- The form of the operands of a chain. -/
def Chain.operand : Chain → Form
  | product => .literal
  | sum => .chain product
  | comparison => .chain sum
  | assignment => .output

/-- The operators of a chain. -/
def Chain.isOperator : Chain → Token → Bool
  | product, t => isProduct t
  | sum, t => isSum t
  | comparison, t => t.kind = .comparison
  | assignment, t => t.kind = .equals

/-- Two operands and the operator between them. Only an assignment has operands that are no expressions. -/
def Chain.build : Chain → Stmt → Text → Stmt → Option Stmt
  | product, .expr l, operator, .expr r => some (.expr (.binary l operator r))
  | sum, .expr l, operator, .expr r => some (.expr (.binary l operator r))
  | comparison, .expr l, operator, .expr r => some (.expr (.comparison l operator r))
  | assignment, l, operator, r => some (buildAssign l operator r)
  | _, _, _, _ => none

theorem Chain.build_cases {c : Chain} {l r s : Stmt} {o : Text} (h : c.build l o r = some s) :
    (∃ a b, (c = .product ∨ c = .sum) ∧ l = .expr a ∧ r = .expr b ∧ s = .expr (.binary a o b)) ∨
      (∃ a b, c = .comparison ∧ l = .expr a ∧ r = .expr b ∧ s = .expr (.comparison a o b)) ∨
      c = .assignment ∧ s = .expr (.assign l o r) := by
  unfold Chain.build at h
  split at h
  · exact .inl ⟨_, _, .inl rfl, rfl, rfl, (Option.some.inj h).symm⟩
  · exact .inl ⟨_, _, .inr rfl, rfl, rfl, (Option.some.inj h).symm⟩
  · exact .inr (.inl ⟨_, _, rfl, rfl, rfl, (Option.some.inj h).symm⟩)
  · exact .inr (.inr ⟨rfl, (Option.some.inj h).symm⟩)
  · cases h

/-- No token of a kind comes next. -/
def Lacks (kind : Kind) (ts : List Token) : Prop :=
  ∀ t ∈ ts.head?, t.kind ≠ kind

/-- No operator of a chain comes next. -/
def Chain.Ends (c : Chain) (ts : List Token) : Prop :=
  ∀ t ∈ ts.head?, c.isOperator t = false

/-- The kinds of tokens that stand for themselves where an operand is expected. -/
def isStray : Kind → Bool
  | .identifier | .number | .string | .openParen | .unknown => false
  | _ => true

/-- The rules of the grammar. -/
inductive Reads (ending : Text) : Form → List Token → Stmt → List Token → Prop
  | identifier {t : Token} {ts : List Token} : t.kind = .identifier →
      Reads ending .literal (t :: ts) (.expr (.identifier t.text)) ts
  | number {t : Token} {ts : List Token} {x : Number} : t.kind = .number → Number.ofLiteral? t.text = some x →
      Reads ending .literal (t :: ts) (.expr (.number x)) ts
  | string {t : Token} {ts : List Token} {value : Text} : t.kind = .string → unquote? t.text = some value →
      Reads ending .literal (t :: ts) (.expr (.string value)) ts
  | group {t u : Token} {ts rest : List Token} {e : Expr} : t.kind = .openParen →
      Reads ending (.chain .assignment) ts (.expr e) (u :: rest) → u.kind = .closedParen →
      Reads ending .literal (t :: ts) (.expr e) rest
  | stray {t : Token} {ts : List Token} : isStray t.kind = true →
      Reads ending .literal (t :: ts) (.expr (.unrecognized t.text)) ts
  | atEnd : Reads ending .literal [] (.expr (.unrecognized ending)) []
  | first {c : Chain} {ts rest : List Token} {s : Stmt} : Reads ending c.operand ts s rest →
      Reads ending (.links c) ts s rest
  | join {c : Chain} {t : Token} {ts mid rest : List Token} {l r s : Stmt} : Reads ending (.links c) ts l (t :: mid) →
      c.isOperator t = true → Reads ending c.operand mid r rest → c.build l t.text r = some s →
      Reads ending (.links c) ts s rest
  | done {c : Chain} {ts rest : List Token} {s : Stmt} : Reads ending (.links c) ts s rest → c.Ends rest →
      Reads ending (.chain c) ts s rest
  | typeOf {t : Token} {ts rest : List Token} {e : Expr} : t.kind = .type →
      Reads ending (.chain .comparison) ts (.expr e) rest → Reads ending .typed (t :: ts) (.expr (.typeOf e)) rest
  | untyped {ts rest : List Token} {s : Stmt} : Lacks .type ts → Reads ending (.chain .comparison) ts s rest →
      Reads ending .typed ts s rest
  | choice {t : Token} {ts ts₁ ts₂ rest : List Token} {c y n : Expr} : Reads ending .typed ts (.expr c) (t :: ts₁) →
      t.kind = .question → Reads ending .typed ts₁ (.expr y) ts₂ → Reads ending .typed (ts₂.drop 1) (.expr n) rest →
      Reads ending .ternary ts (.expr (.ternary c y n)) rest
  | decided {ts rest : List Token} {s : Stmt} : Reads ending .typed ts s rest → Lacks .question rest →
      Reads ending .ternary ts s rest
  | ifThen {t u : Token} {ts ts₁ rest : List Token} {c : Expr} {b : List Stmt} : t.kind = .condition →
      Reads ending (.chain .assignment) ts (.expr c) (u :: ts₁) → u.kind = .openBlock →
      Reads ending (.items true) ts₁ (.block b) rest → Reads ending .conditional (t :: ts) (.ifThen c b) rest
  | marked {t : Token} {ts rest : List Token} {c : Expr} : t.kind = .condition →
      Reads ending (.chain .assignment) ts (.expr c) rest → Lacks .openBlock rest →
      Reads ending .conditional (t :: ts) (.expr c) rest
  | unmarked {ts rest : List Token} {s : Stmt} : Lacks .condition ts → Reads ending .ternary ts s rest →
      Reads ending .conditional ts s rest
  | output {t : Token} {ts rest : List Token} {s : Stmt} : t.kind = .output → Reads ending .conditional ts s rest →
      Reads ending .output (t :: ts) (.output s) rest
  | silent {ts rest : List Token} {s : Stmt} : Lacks .output ts → Reads ending .conditional ts s rest →
      Reads ending .output ts s rest
  | comment {t : Token} {ts : List Token} : t.kind = .comment → Reads ending .statement (t :: ts) (.comment t.text) ts
  | plain {ts rest : List Token} {s : Stmt} : Lacks .comment ts → Reads ending (.chain .assignment) ts s rest →
      Reads ending .statement ts s rest
  | close {t : Token} {ts : List Token} : t.kind = .closeBlock → Reads ending (.items true) (t :: ts) (.block []) ts
  | finish : Reads ending (.items false) [] (.block []) []
  | skip {b : Bool} {t : Token} {ts rest : List Token} {s : Stmt} : t.kind = .endOfLine →
      Reads ending (.items b) ts s rest → Reads ending (.items b) (t :: ts) s rest
  | item {b : Bool} {t : Token} {ts ts₁ rest : List Token} {s : Stmt} {more : List Stmt} : t.kind ≠ .endOfLine →
      (b = true → t.kind ≠ .closeBlock) → Reads ending .statement (t :: ts) s ts₁ →
      Reads ending (.items b) (skipEndOfLine ts₁) (.block more) rest →
      Reads ending (.items b) (t :: ts) (.block (s :: more)) rest

/-! ## Progress -/

theorem length_skipEndOfLine_le (ts : List Token) : (skipEndOfLine ts).length ≤ ts.length := by
  cases ts with
  | nil => simp [skipEndOfLine, accept]
  | cons t ts => by_cases h : t.kind = .endOfLine <;> simp [skipEndOfLine, accept, h]

/-- A form takes at least one token, unless there is none. -/
theorem Reads.progress {ending : Text} {f : Form} {ts rest : List Token} {s : Stmt} (h : Reads ending f ts s rest) :
    rest.length < ts.length ∨ ts = [] ∧ rest = [] := by
  induction h with
  | atEnd | finish => exact .inr ⟨rfl, rfl⟩
  | identifier | number | string | stray | comment | close => simp
  | group _ _ _ ih | typeOf _ _ ih | marked _ _ _ ih | output _ _ ih | skip _ _ ih =>
    rcases ih with ih | ⟨rfl, ih⟩
    · simp only [List.length_cons] at ih ⊢; omega
    · simp_all
  | first _ ih | done _ _ ih | untyped _ _ ih | decided _ _ ih | unmarked _ _ ih | silent _ _ ih | plain _ _ ih =>
    exact ih
  | join _ _ _ _ ih₁ ih₂ =>
    rcases ih₁ with ih₁ | ⟨-, ih₁⟩
    · rcases ih₂ with ih₂ | ⟨rfl, rfl⟩ <;> simp only [List.length_cons, List.length_nil] at * <;> omega
    · cases ih₁
  | @choice t ts ts₁ ts₂ rest c y n _ _ _ _ ih₁ ih₂ ih₃ =>
    rcases ih₁ with ih₁ | ⟨-, ih₁⟩
    · have h₂ : ts₂.length ≤ ts₁.length := by rcases ih₂ with ih₂ | ⟨rfl, rfl⟩ <;> omega
      have h₃ : rest.length ≤ (ts₂.drop 1).length := by rcases ih₃ with ih₃ | ⟨ih₃, rfl⟩ <;> simp_all; omega
      simp only [List.length_drop, List.length_cons] at h₃ ih₁
      omega
    · cases ih₁
  | @ifThen t u ts ts₁ rest c b _ _ _ _ ih₁ ih₂ =>
    rcases ih₁ with ih₁ | ⟨-, ih₁⟩
    · have h₂ : rest.length ≤ ts₁.length := by rcases ih₂ with ih₂ | ⟨rfl, rfl⟩ <;> omega
      simp only [List.length_cons] at ih₁ ⊢
      omega
    · cases ih₁
  | @item b t ts ts₁ rest s more _ _ _ _ ih₁ ih₂ =>
    rcases ih₁ with ih₁ | ⟨ih₁, -⟩
    · have h₂ : rest.length ≤ (skipEndOfLine ts₁).length := by rcases ih₂ with ih₂ | ⟨ih₂, rfl⟩ <;> simp_all; omega
      have := length_skipEndOfLine_le ts₁
      omega
    · cases ih₁

theorem Reads.length_le {ending : Text} {f : Form} {ts rest : List Token} {s : Stmt} (h : Reads ending f ts s rest) :
    rest.length ≤ ts.length := by
  rcases h.progress with h | ⟨rfl, rfl⟩ <;> omega

theorem skipEndOfLine_suffix (ts : List Token) : skipEndOfLine ts <:+ ts := by
  cases ts with
  | nil => exact List.suffix_refl []
  | cons t ts => by_cases h : t.kind = .endOfLine <;> simp [skipEndOfLine, accept, h, List.suffix_cons]

/-- What is left is the end of what was there. -/
theorem Reads.suffix {ending : Text} {f : Form} {ts rest : List Token} {s : Stmt} (h : Reads ending f ts s rest) :
    rest <:+ ts := by
  induction h with
  | identifier | number | string | stray | comment | close => exact List.suffix_cons _ _
  | atEnd | finish => exact List.suffix_refl []
  | group _ _ _ ih => exact ((List.suffix_cons _ _).trans ih).trans (List.suffix_cons _ _)
  | typeOf _ _ ih | marked _ _ _ ih | output _ _ ih | skip _ _ ih => exact ih.trans (List.suffix_cons _ _)
  | first _ ih | done _ _ ih | untyped _ _ ih | decided _ _ ih | unmarked _ _ ih | silent _ _ ih | plain _ _ ih =>
    exact ih
  | join _ _ _ _ ih₁ ih₂ => exact ih₂.trans ((List.suffix_cons _ _).trans ih₁)
  | choice _ _ _ _ ih₁ ih₂ ih₃ =>
    exact ih₃.trans ((List.drop_suffix 1 _).trans (ih₂.trans ((List.suffix_cons _ _).trans ih₁)))
  | ifThen _ _ _ _ ih₁ ih₂ => exact (ih₂.trans ((List.suffix_cons _ _).trans ih₁)).trans (List.suffix_cons _ _)
  | item _ _ _ _ ih₁ ih₂ => exact ih₂.trans ((skipEndOfLine_suffix _).trans ih₁)

end Jolt.Grammar
