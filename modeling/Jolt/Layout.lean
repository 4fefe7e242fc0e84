import Jolt.Number.Numeral
import Jolt.Tree

/-!
# Layout

The canonical source of a program: one statement a line, bodies indented by four spaces, single spaces around operators,
parentheses only where the grammar needs them. `Level` orders the forms of expressions by how tightly they bind; an
expression that is looser than its place allows is put in parentheses.
-/

namespace Jolt

/-- How tightly an expression binds; more is tighter. -/
abbrev Level := Nat

namespace Level

abbrev assignment : Level := 0
abbrev ternary : Level := 1
abbrev type : Level := 2
abbrev comparison : Level := 3
abbrev sum : Level := 4
abbrev product : Level := 5
abbrev literal : Level := 6

end Level

/-- The level of a binary operator. -/
def Level.ofOperator (operator : Text) : Level :=
  if operator = utf8 "*" ∨ operator = utf8 "/" then Level.product else Level.sum

/-- The level of an expression. -/
def Expr.level : Expr → Level
  | .assign _ _ _ => Level.assignment
  | .ternary _ _ _ => Level.ternary
  | .typeOf _ => Level.type
  | .comparison _ _ _ => Level.comparison
  | .binary _ operator _ => Level.ofOperator operator
  | _ => Level.literal

mutual

/-- Whether an expression ran into the end of the input: its last operand is an empty placeholder. -/
def Expr.incomplete : Expr → Bool
  | .unrecognized text => text.isEmpty
  | .assign _ _ value => value.incomplete
  | .typeOf operand => operand.incomplete
  | .binary _ _ right => right.incomplete
  | .comparison _ _ right => right.incomplete
  | .ternary _ _ no => no.incomplete
  | _ => false

/-- Whether a statement ran into the end of the input. A terminator after it would be read as one more token. -/
def Stmt.incomplete : Stmt → Bool
  | .expr e => e.incomplete
  | .output value => value.incomplete
  | _ => false

end

/-- Whether a statement is closed with a terminator. Comments and bodies end themselves. -/
def Stmt.needsTerminator : Stmt → Bool
  | .comment _ | .ifThen _ _ => false
  | _ => true

namespace Layout

/-- A number in a source: all its digits in place, and a sign also on zero. -/
def numerals : NumeralStyle :=
  .inPlace

/-- The words that would be read as keywords before a space. -/
def isKeyword (word : Text) : Bool :=
  word = utf8 "out" || word = utf8 "type" || word = utf8 "if"

/-- Four spaces a step. -/
def indentation (depth : Nat) : Text :=
  Text.spaces (4 * depth)

/-- A text in parentheses, if needed. -/
def parenthesized (needed : Bool) (t : Text) : Text :=
  if needed then utf8 "(" ++ t ++ utf8 ")" else t

/-- An operator between spaces. -/
def spaced (operator : Text) : Text :=
  utf8 " " ++ operator ++ utf8 " "

/-- What ends the line of a statement. -/
def terminator (s : Stmt) : Text :=
  if s.needsTerminator && !s.incomplete then utf8 ";" else []

end Layout

open Layout

mutual

/-- An expression in a place that needs at least the level `least`, inside `depth` bodies. -/
def Expr.layout (depth : Nat) (least : Level) (e : Expr) : Text :=
  parenthesized (e.level < least) <|
    match e with
    | .number x => x.write numerals
    | .string s => utf8 "\"" ++ s ++ utf8 "\""
    | .identifier name => parenthesized (isKeyword name) name
    | .binary left operator right =>
      left.layout depth (Level.ofOperator operator) ++ spaced operator
        ++ right.layout depth (Level.ofOperator operator + 1)
    | .comparison left operator right =>
      left.layout depth Level.comparison ++ spaced operator ++ right.layout depth Level.sum
    | .ternary condition yes no =>
      condition.layout depth Level.type
        ++ if yes.incomplete then utf8 " ?"
          else utf8 " ? " ++ yes.layout depth Level.type ++ utf8 " : " ++ no.layout depth Level.type
    | .typeOf operand => utf8 "type " ++ operand.layout depth Level.comparison
    | .assign target operator value =>
      target.layout depth Level.ternary ++ spaced operator ++ value.layout depth Level.ternary
    | .unrecognized text => text ++ (if isKeyword text then utf8 " " else [])
    | .missing => []

/-- A statement; `least` applies where it is an expression. -/
def Stmt.layout (depth : Nat) (least : Level) : Stmt → Text
  | .expr e => e.layout depth least
  | .output value => utf8 "out " ++ value.layout depth Level.ternary
  | .comment text => text
  | .ifThen condition body =>
    utf8 "if " ++ condition.layout depth Level.assignment ++ utf8 " \x7b\n"
      ++ Stmt.layoutAll (depth + 1) body ++ indentation depth ++ utf8 "\x7d"
  | .block _ => []

/-- Statements, each on its line. -/
def Stmt.layoutAll (depth : Nat) : List Stmt → Text
  | [] => []
  | s :: rest =>
    indentation depth ++ s.layout depth Level.assignment ++ terminator s ++ utf8 "\n" ++ Stmt.layoutAll depth rest

end

/-- The canonical source of a program. -/
def Program.layout (program : Program) : Text :=
  Stmt.layoutAll 0 program

end Jolt
