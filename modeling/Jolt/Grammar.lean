import Jolt.Diagnostic
import Jolt.Number.Literal
import Jolt.Token.Scan
import Jolt.Tree

/-!
# The grammar

From loose to tight: assignment, `out`, `if`, `?`, `type`, comparison, sum, product, literal. Each level is a `Reader`: it
takes tokens off the front of a list and gives a tree with the tokens that are left.

The tokens of a unit are those before its first end of input; that token, `stop`, is what a reader sees when the list
is empty. What may be nested inside a literal or an `if` is an assignment again. Levels therefore take the reader of
nested assignments as an argument, and `Grammar.assignment` ties the knot by the depth of nesting. Nothing nests deeper
than there are tokens, and no level repeats more often than there are tokens, so the bound that `Grammar.program` gives
is never reached.
-/

namespace Jolt.Grammar

open Token (Kind)

/-- Reads a value off the front of a list of tokens. -/
abbrev Reader (α : Type) := List Token → Except Fault (α × List Token)

/-- The tokens after a first one of the given kind. -/
def accept (kind : Kind) : List Token → Option (List Token)
  | [] => none
  | t :: ts => if t.kind = kind then some ts else none

/-- Drops one separator, if there is one. -/
def skipEndOfLine (ts : List Token) : List Token :=
  (accept .endOfLine ts).getD ts

/-- The value between the quotes of a string token. -/
def unquote? (t : Text) : Option Text :=
  if 2 ≤ t.length ∧ t.getLast? = some Byte.quote then some (t.drop 1).dropLast else none

/-- Extends `left` with operators and operands, from the left, at most `n` times. -/
def chainFrom {α : Type} (operand : Reader α) (isOperator : Token → Bool) (build : α → Text → α → α) :
    Nat → α → Reader α
  | 0, left, ts => .ok (left, ts)
  | _ + 1, left, [] => .ok (left, [])
  | n + 1, left, t :: ts =>
    if isOperator t then do
      let (right, rest) ← operand ts
      chainFrom operand isOperator build n (build left t.text right) rest
    else .ok (left, t :: ts)

/-- Operands with operators between them, grouped from the left. -/
def chain {α : Type} (operand : Reader α) (isOperator : Token → Bool) (build : α → Text → α → α) (n : Nat) :
    Reader α := fun ts => do
  let (left, rest) ← operand ts
  chainFrom operand isOperator build n left rest

/-- An operator of products. -/
def isProduct (t : Token) : Bool :=
  t.kind = .binaryOperator && (t.text = utf8 "*" || t.text = utf8 "/")

/-- An operator of sums. -/
def isSum (t : Token) : Bool :=
  t.kind = .binaryOperator && (t.text = utf8 "+" || t.text = utf8 "-")

/-- An assignment. -/
def buildAssign (target : Stmt) (operator : Text) (value : Stmt) : Stmt :=
  .expr (.assign target operator value)

section Levels

variable (stop : Token) (nested : Reader Stmt) (n : Nat)

/-- An assignment that yields a value. -/
def expression : Reader Expr := fun ts => do
  match ← nested ts with
  | (.expr e, rest) => .ok (e, rest)
  | _ => .error ⟨.expectedExpression, ts.headD stop⟩

/-- An expression and the parenthesis that closes it. -/
def group : Reader Expr := fun ts => do
  let (e, rest) ← expression stop nested ts
  match accept .closedParen rest with
  | some rest => .ok (e, rest)
  | none => .error ⟨.unclosedParen, rest.headD stop⟩

/-- A name, a number, a string, a group; or any token but an unknown one, kept as unrecognized. -/
def literal : Reader Expr
  | [] => .ok (.unrecognized stop.text, [])
  | t :: ts =>
    match t.kind with
    | .identifier => .ok (.identifier t.text, ts)
    | .number =>
      match Number.ofLiteral? t.text with
      | some x => .ok (.number x, ts)
      | none => .error ⟨.invalidNumber, t⟩
    | .string =>
      match unquote? t.text with
      | some s => .ok (.string s, ts)
      | none => .error ⟨.unterminatedString, t⟩
    | .openParen => group stop nested ts
    | .unknown => .error ⟨.unexpectedToken, t⟩
    | _ => .ok (.unrecognized t.text, ts)

/-- Literals joined by `*` and `/`. -/
def product : Reader Expr :=
  chain (literal stop nested) isProduct .binary n

/-- Products joined by `+` and `-`. -/
def sum : Reader Expr :=
  chain (product stop nested n) isSum .binary n

/-- Sums joined by comparisons. -/
def comparison : Reader Expr :=
  chain (sum stop nested n) (·.kind = .comparison) .comparison n

/-- A comparison, or the type of one. -/
def typed : Reader Expr := fun ts =>
  match accept .type ts with
  | none => comparison stop nested n ts
  | some ts => do
    let (e, rest) ← comparison stop nested n ts
    .ok (.typeOf e, rest)

/-- A choice between two values. The token between them may be any. -/
def ternary : Reader Expr := fun ts => do
  let (condition, rest) ← typed stop nested n ts
  match accept .question rest with
  | none => .ok (condition, rest)
  | some rest =>
    let (yes, rest) ← typed stop nested n rest
    let (no, rest) ← typed stop nested n (rest.drop 1)
    .ok (.ternary condition yes no, rest)

/-- A comment or an assignment. -/
def statement : Reader Stmt
  | [] => nested []
  | t :: ts => if t.kind = .comment then .ok (.comment t.text, ts) else nested (t :: ts)

/-- The statements of a body and the brace that closes it, in at most `n` steps. -/
def body : Nat → Reader (List Stmt)
  | 0, _ => .error ⟨.unclosedBody, stop⟩
  | _ + 1, [] => .error ⟨.unclosedBody, stop⟩
  | n + 1, t :: ts =>
    if t.kind = .closeBlock then .ok ([], ts)
    else if t.kind = .endOfLine then body n ts
    else do
      let (s, rest) ← statement nested (t :: ts)
      let (more, rest) ← body n (skipEndOfLine rest)
      .ok (s :: more, rest)

/-- A conditional body. Without braces `if` only marks an expression. -/
def conditional : Reader Stmt := fun ts =>
  match accept .condition ts with
  | none => do
    let (e, rest) ← ternary stop nested n ts
    .ok (.expr e, rest)
  | some ts => do
    let (condition, rest) ← expression stop nested ts
    match accept .openBlock rest with
    | none => .ok (.expr condition, rest)
    | some rest =>
      let (statements, rest) ← body stop nested n rest
      .ok (.ifThen condition statements, rest)

/-- A conditional, or the output of one. -/
def output : Reader Stmt := fun ts =>
  match accept .output ts with
  | none => conditional stop nested n ts
  | some ts => do
    let (s, rest) ← conditional stop nested n ts
    .ok (.output s, rest)

end Levels

/-- Outputs joined by assignment operators, nested to a depth below `n`. -/
def assignment (stop : Token) : Nat → Reader Stmt
  | 0 => fun _ => .error ⟨.expectedExpression, stop⟩
  | n + 1 => chain (output stop (assignment stop n) n) (·.kind = .equals) buildAssign n

/-- The statements up to the end of the input, in at most `n` steps. -/
def statements (nested : Reader Stmt) : Nat → List Token → Except Fault (List Stmt)
  | 0, _ => .ok []
  | _ + 1, [] => .ok []
  | n + 1, t :: ts =>
    if t.kind = .endOfLine then statements nested n ts
    else do
      let (s, rest) ← statement nested (t :: ts)
      let more ← statements nested n (skipEndOfLine rest)
      .ok (s :: more)

/-- The end of input that stands after tokens without one. -/
def impliedStop : Token :=
  ⟨[], .endOfInput, .nowhere⟩

/-- The program that tokens spell. Nothing after the first end of input counts. -/
def program (tokens : List Token) : Except Fault Program :=
  let unit := tokens.takeWhile (!·.isEnd)
  let stop := (tokens.find? (·.isEnd)).getD impliedStop
  statements (assignment stop (unit.length + 1)) unit.length unit

end Grammar

/-- The program of a source, or what is wrong with it. The file is named in the diagnostic, unless it is empty. -/
def parse (source file : Text) : Except Diagnostic Program :=
  (Grammar.program (Token.scan source)).mapError (Fault.diagnose file source.lines)

end Jolt
