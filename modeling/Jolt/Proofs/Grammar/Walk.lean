import Jolt.Grammar

/-!
# Walking along the tokens

The grammar once more, as the walk of a cursor along a list of tokens. Here nothing bounds the levels: they call each
other and repeat for as long as the tokens make them. The token at the cursor is looked up by its number, and a string is
cut at its two ends; each may reach outside (`Halt.outside`). A walk that never ends gives nothing (`Walk.runAt`).

The levels are named as the readers of `Jolt.Grammar` are, and take the same turns. `Walker.step` says what each does,
given the walks of the levels that it calls, and `walker` is the least walker that is its own step. There is one, as a
step goes no less far if its calls go farther (`Walker.within_step`).
-/

namespace Jolt.Grammar

open Token (Kind)

/-- Why a walk stops on its way: a fault of the tokens, or an access outside of the tokens or of a text. -/
inductive Halt where
  | fault (f : Fault)
  | outside

/-- A walk of a cursor along tokens. -/
abbrev Walk (α : Type) := ExceptT Halt (StateT Nat Option) α

/-- What a walk from a place comes to, and where the cursor is then. -/
def Walk.runAt {α : Type} (w : Walk α) (i : Nat) : Option (Except Halt α × Nat) :=
  w.run.run i

/-- The chains of expressions. -/
inductive Joint where
  | product
  | sum
  | comparison

/-- The operators of a chain of expressions. -/
def Joint.isOperator : Joint → Token → Bool
  | product => isProduct
  | sum => isSum
  | comparison => (·.kind = .comparison)

/-- Two expressions and the operator between them. -/
def Joint.build : Joint → Expr → Text → Expr → Expr
  | product | sum => .binary
  | comparison => .comparison

namespace Walk

/-! ## Single steps -/

section Steps

variable (tokens : List Token)

/-- The token at the cursor. -/
def peek : Walk Token := do
  match tokens[← get]? with
  | some t => return t
  | none => throw .outside

/-- Moves past the token at the cursor, unless it is an end of input. -/
def advance : Walk Token := do
  let t ← peek tokens
  if !t.isEnd then modify (· + 1)
  return t

/-- Moves past a token if it is of a kind. -/
def next (kind : Kind) : Walk Bool := do
  let t ← peek tokens
  if t.kind = kind then
    let _ ← advance tokens
    return true
  else return false

/-- The bytes of a text from one place up to another. -/
def slice (t : Text) (low high : Nat) : Walk Text :=
  if low ≤ high ∧ high ≤ t.length then return (t.take high).drop low else throw .outside

end Steps

/-! ## Running a walk -/

section Run

variable {α β : Type} {i j : Nat}

theorem runAt_pure (x : α) : (pure x : Walk α).runAt i = some (.ok x, i) :=
  rfl

theorem runAt_throw (h : Halt) : (throw h : Walk α).runAt i = some (.error h, i) :=
  rfl

theorem runAt_bind (w : Walk α) (k : α → Walk β) :
    (w >>= k).runAt i = (w.runAt i).bind fun a => ExceptT.bindCont k a.1 a.2 :=
  rfl

theorem runAt_bind_of_ok {w : Walk α} {k : α → Walk β} {x : α} (h : w.runAt i = some (.ok x, j)) :
    (w >>= k).runAt i = (k x).runAt j := by
  rw [runAt_bind, h]
  rfl

theorem runAt_bind_of_error {w : Walk α} {k : α → Walk β} {e : Halt} (h : w.runAt i = some (.error e, j)) :
    (w >>= k).runAt i = some (.error e, j) := by
  rw [runAt_bind, h]
  rfl

theorem runAt_peek {tokens : List Token} {t : Token} (h : tokens[i]? = some t) :
    (peek tokens).runAt i = some (.ok t, i) := by
  have hget : (get : Walk Nat).runAt i = some (.ok i, i) := rfl
  rw [peek, runAt_bind_of_ok hget, h]
  rfl

theorem runAt_advance {tokens : List Token} {t : Token} (h : tokens[i]? = some t) :
    (advance tokens).runAt i = some (.ok t, if t.isEnd then i else i + 1) := by
  rw [advance, runAt_bind_of_ok (runAt_peek h)]
  cases t.isEnd <;> rfl

theorem runAt_next_of_ne {tokens : List Token} {t : Token} {kind : Kind} (h : tokens[i]? = some t)
    (hk : t.kind ≠ kind) : (next tokens kind).runAt i = some (.ok false, i) := by
  rw [next, runAt_bind_of_ok (runAt_peek h), if_neg hk]
  rfl

theorem runAt_next_of_eq {tokens : List Token} {t : Token} (h : tokens[i]? = some t) (he : t.isEnd = false) :
    (next tokens t.kind).runAt i = some (.ok true, i + 1) := by
  rw [next, runAt_bind_of_ok (runAt_peek h), if_pos rfl, runAt_bind_of_ok (runAt_advance h), he]
  rfl

theorem runAt_slice {t : Text} {low high : Nat} (hl : low ≤ high) (hh : high ≤ t.length) :
    (slice t low high).runAt i = some (.ok ((t.take high).drop low), i) := by
  rw [slice, if_pos ⟨hl, hh⟩]
  rfl

end Run

/-! ## Going farther -/

/-- Wherever the one walk comes to an end, the other comes to the same. -/
def Within {α : Type} (v w : Walk α) : Prop :=
  ∀ i, v.runAt i = none ∨ v.runAt i = w.runAt i

section Within

variable {α β : Type}

theorem Within.refl (w : Walk α) : w.Within w :=
  fun _ => .inr rfl

theorem Within.bind {v w : Walk α} {k k' : α → Walk β} (h : v.Within w) (hk : ∀ x, (k x).Within (k' x)) :
    (v >>= k).Within (w >>= k') := by
  intro i
  rcases h i with hnone | heq
  · left
    rw [runAt_bind, hnone]
    rfl
  · rw [runAt_bind, runAt_bind, ← heq]
    match v.runAt i with
    | none => exact .inl rfl
    | some (.ok x, j) => exact hk x j
    | some (.error e, j) => exact .inr rfl

end Within

end Walk

/-! ## Levels -/

/-- The levels, each with the kind of tree that it reads. -/
inductive Walk.Level : Type → Type where
  /-- The statements up to the end of the input. -/
  | program : Level Program
  /-- A comment or an assignment. -/
  | statement : Level Stmt
  /-- Outputs joined by assignment operators. -/
  | assignment : Level Stmt
  /-- Extends what has been read of an assignment. -/
  | assignmentFrom (left : Stmt) : Level Stmt
  /-- A conditional, or the output of one. -/
  | output : Level Stmt
  /-- A conditional body, or an expression, which `if` may mark. -/
  | conditional : Level Stmt
  /-- The statements of a body and the brace that closes it. -/
  | body : Level (List Stmt)
  /-- An assignment that yields a value. -/
  | expression : Level Expr
  /-- A choice between two values, with any token between them. -/
  | ternary : Level Expr
  /-- A comparison, or the type of one. -/
  | typed : Level Expr
  /-- Expressions joined by the operators of a chain. -/
  | joined (j : Joint) : Level Expr
  /-- Extends what has been read of a chain. -/
  | joinedFrom (j : Joint) (left : Expr) : Level Expr
  /-- An operand of a chain. -/
  | operand (j : Joint) : Level Expr
  /-- A name, a number, a string, a group; or any token but an unknown one, kept as unrecognized. -/
  | literal : Level Expr

/-- A walk for each level. -/
abbrev Walker := ⦃α : Type⦄ → Walk.Level α → Walk α

section Levels

variable (tokens : List Token)

open Walk (peek advance next slice)

/-- What each level does, with its calls of levels done by a walker. -/
def Walker.step (call : Walker) : Walker
  | _, .program => do
    let t ← peek tokens
    if t.isEnd then return []
    else if ← next tokens .endOfLine then call .program
    else
      let s ← call .statement
      let _ ← next tokens .endOfLine
      let more ← call .program
      return s :: more
  | _, .statement => do
    let t ← peek tokens
    if t.kind = .comment then
      let t ← advance tokens
      return .comment t.text
    else call .assignment
  | _, .assignment => do
    let left ← call .output
    call (.assignmentFrom left)
  | _, .assignmentFrom left => do
    let t ← peek tokens
    if t.kind = .equals then
      let operator ← advance tokens
      let value ← call .output
      call (.assignmentFrom (buildAssign left operator.text value))
    else return left
  | _, .output => do
    if ← next tokens .output then
      let s ← call .conditional
      return .output s
    else call .conditional
  | _, .conditional => do
    if ← next tokens .condition then
      let condition ← call .expression
      if ← next tokens .openBlock then
        let statements ← call .body
        return .ifThen condition statements
      else return .expr condition
    else
      let e ← call .ternary
      return .expr e
  | _, .body => do
    if ← next tokens .closeBlock then return []
    else
      let t ← peek tokens
      if t.isEnd then throw (.fault ⟨.unclosedBody, t⟩)
      else if ← next tokens .endOfLine then call .body
      else
        let s ← call .statement
        let _ ← next tokens .endOfLine
        let more ← call .body
        return s :: more
  | _, .expression => do
    let start ← peek tokens
    match ← call .assignment with
    | .expr e => return e
    | _ => throw (.fault ⟨.expectedExpression, start⟩)
  | _, .ternary => do
    let condition ← call .typed
    if ← next tokens .question then
      let yes ← call .typed
      let _ ← advance tokens
      let no ← call .typed
      return .ternary condition yes no
    else return condition
  | _, .typed => do
    if ← next tokens .type then
      let e ← call (.joined .comparison)
      return .typeOf e
    else call (.joined .comparison)
  | _, .joined j => do
    let left ← call (.operand j)
    call (.joinedFrom j left)
  | _, .joinedFrom j left => do
    let t ← peek tokens
    if j.isOperator t then
      let operator ← advance tokens
      let right ← call (.operand j)
      call (.joinedFrom j (j.build left operator.text right))
    else return left
  | _, .operand .product => call .literal
  | _, .operand .sum => call (.joined .product)
  | _, .operand .comparison => call (.joined .sum)
  | _, .literal => do
    let t ← peek tokens
    match t.kind with
    | .identifier =>
      let _ ← advance tokens
      return .identifier t.text
    | .number =>
      let _ ← advance tokens
      match Number.ofLiteral? t.text with
      | some x => return .number x
      | none => throw (.fault ⟨.invalidNumber, t⟩)
    | .openParen =>
      let _ ← advance tokens
      let e ← call .expression
      let u ← peek tokens
      if ← next tokens .closedParen then return e else throw (.fault ⟨.unclosedParen, u⟩)
    | .string =>
      let _ ← advance tokens
      if t.text.length < 2 ∨ t.text.getLast? ≠ some Byte.quote then throw (.fault ⟨.unterminatedString, t⟩)
      else
        let value ← slice t.text 1 (t.text.length - 1)
        return .string value
    | .unknown => throw (.fault ⟨.unexpectedToken, t⟩)
    | _ =>
      let _ ← advance tokens
      return .unrecognized t.text

/-- If its calls go farther, a level goes no less far: all it does with a call is to go on from its end. -/
theorem Walker.within_step {f g : Walker} (h : ∀ {α : Type} (l : Walk.Level α), (f l).Within (g l)) {α : Type}
    (l : Walk.Level α) : (f.step tokens l).Within (g.step tokens l) := by
  cases l with
  | operand j => cases j <;> exact h _
  | _ =>
    simp only [Walker.step]
    repeat' first
      | exact h _
      | exact .refl _
      | refine .bind ?_ fun _ => ?_
      | split

/-- The walks of the levels, which call each other without a bound. -/
def walker : Walker :=
  walker.step tokens
partial_fixpoint monotonicity by
  intro f g h α l i
  -- the order that the least walker is taken in is `Within`: at each place nothing, or the same
  have hcalls : ∀ {α : Type} (l : Walk.Level α), (f l).Within (g l) := by
    intro α l i
    have hrel := h α l i
    show f l i = none ∨ f l i = g l i
    generalize f l i = x at hrel ⊢
    generalize g l i = y at hrel ⊢
    cases hrel with
    | bot => exact .inl rfl
    | refl => exact .inr rfl
  have hstep : f.step tokens l i = none ∨ f.step tokens l i = g.step tokens l i :=
    Walker.within_step tokens hcalls l i
  dsimp only
  rcases hstep with hstep | hstep <;> rw [hstep] <;> constructor

theorem walker_eq {α : Type} (l : Walk.Level α) : walker tokens l = (walker tokens).step tokens l :=
  congrFun (congrFun (walker.eq_1 tokens) α) l

end Levels

end Jolt.Grammar
