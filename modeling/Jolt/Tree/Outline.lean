import Jolt.Number.Numeral
import Jolt.Text.Quoted
import Jolt.Tree

/-!
# Outlines of trees

An outline shows a tree node by node. A node that holds only a text or a number stands on one line. Every other node has a
line for each of its fields, indented, with the values of adjacent lines aligned. Nodes that lie too deep are not shown.
-/

namespace Jolt

namespace Outline

/-- Numbers have two digits or more in an exponent, which is written below `1e-4` and from `1e6` on. -/
def numerals : NumeralStyle :=
  .general

/-- The greatest depth of a node that is shown. -/
def maxDepth : Nat := 10

/-- What stands for a node that lies too deep. -/
def tooDeep : Text :=
  utf8 "!%v(DEPTH EXCEEDED)"

/-- A label with its value, which is one line or more. -/
abbrev Field := Text × List Text

/-- The greatest width of the labels on adjacent lines, from the first field on. A value of several lines ends them. -/
def labelWidth : List Field → Nat
  | [] => 0
  | (label, value) :: rest =>
    if value.length = 1 then max label.length (labelWidth rest) else label.length

/-- The lines of a value with something before the first and after the last of them, all indented. -/
def framed (before after : Text) : List Text → List Text
  | [] => []
  | [line] => [utf8 "    " ++ before ++ line ++ after]
  | line :: rest => (utf8 "    " ++ before ++ line) :: framed [] after rest

/-- The lines of fields. `width?` is the width of the labels if a field stands on the line above. -/
def fieldLines (width? : Option Nat) : List Field → List Text
  | [] => []
  | (label, value) :: rest =>
    let width := width?.getD (labelWidth ((label, value) :: rest))
    framed (Text.padRight (width + 1) label.length label) (utf8 ",") value
      ++ fieldLines (if value.length = 1 then some width else none) rest

/-- A node over others, where the depth still allows it. -/
def node (depth : Nat) (name : String) (fields : List (String × List Text)) : List Text :=
  if maxDepth < depth then [utf8 "&" ++ tooDeep]
  else [utf8 "&parser." ++ utf8 name ++ utf8 "\x7b"]
    ++ fieldLines none (fields.map fun (label, value) => (utf8 label ++ utf8 ":", value)) ++ [utf8 "\x7d"]

/-- A node with one text, which is left out where it says nothing. -/
def leaf (depth : Nat) (name label : String) (value : Text) : List Text :=
  if maxDepth < depth then [utf8 "&" ++ tooDeep]
  else
    let field := if value.isEmpty then [] else utf8 label ++ utf8 ":" ++ value
    [utf8 "&parser." ++ utf8 name ++ utf8 "\x7b" ++ field ++ utf8 "\x7d"]

/-- A text in quotes, nothing for no text. -/
def quotedUnlessEmpty (t : Text) : Text :=
  if t.isEmpty then [] else t.quoted

/-- A number, nothing for zero. -/
def numberUnlessZero (x : Number) : Text :=
  if x.eq (Number.zero false) then [] else x.write numerals

/-- A block with the lines of its items, each of which ends in a comma. No items make an empty block. -/
def block (depth : Nat) (items : List Text) : List Text :=
  if maxDepth < depth then [utf8 "&" ++ tooDeep]
  else if items.isEmpty then [utf8 "&parser.Block\x7b\x7d"]
  else node depth "Block" [("Body", [utf8 "\x7b"] ++ items.map (utf8 "    " ++ ·) ++ [utf8 "\x7d"])]

end Outline

open Outline in
mutual

/-- The lines of an expression that is a node of a given depth. -/
def Expr.outline (depth : Nat) : Expr → List Text
  | .number x => leaf depth "Number" "Value" (numberUnlessZero x)
  | .string t => leaf depth "String" "Value" (quotedUnlessEmpty t)
  | .identifier name => leaf depth "Identifier" "Name" (quotedUnlessEmpty name)
  | .unrecognized t => leaf depth "Unrecognized" "Text" (quotedUnlessEmpty t)
  | .binary left operator right =>
    node depth "BinaryExpression" [("Left", left.outline (depth + 1)), ("Operator", [operator.quoted]),
      ("Right", right.outline (depth + 1))]
  | .comparison left operator right =>
    node depth "BooleanExpression" [("Left", left.outline (depth + 1)), ("Operator", [operator.quoted]),
      ("Right", right.outline (depth + 1))]
  | .ternary condition yes no =>
    node depth "TernaryOperator" [("Condition", condition.outline (depth + 1)), ("True", yes.outline (depth + 1)),
      ("False", no.outline (depth + 1))]
  | .typeOf operand => node depth "Type" [("Value", operand.outline (depth + 1))]
  | .assign target operator value =>
    node depth "VariableAssignment" [("Target", target.outline (depth + 1)), ("Operator", [operator.quoted]),
      ("Value", value.outline (depth + 1))]
  | .missing => [utf8 "nil"]

/-- The lines of a statement that is a node of a given depth. -/
def Stmt.outline (depth : Nat) : Stmt → List Text
  | .expr e => e.outline depth
  | .output value => node depth "Output" [("Value", value.outline (depth + 1))]
  | .comment t => leaf depth "Comment" "Text" (quotedUnlessEmpty t)
  | .ifThen condition body =>
    node depth "IfStatement" [("Condition", condition.outline (depth + 1)),
      ("Body", block (depth + 1) (Stmt.outlineItems (depth + 3) body))]
  | .block body => block depth (Stmt.outlineItems (depth + 2) body)

/-- The lines of the items of a block. An item lies one deeper than the block, and its node two. -/
def Stmt.outlineItems (depth : Nat) : List Stmt → List Text
  | [] => []
  | s :: rest =>
    let lines := if maxDepth < depth - 1 then [tooDeep] else s.outline depth
    lines.dropLast ++ (lines.getLast?.toList.map (· ++ utf8 ",")) ++ Stmt.outlineItems depth rest

end

/-- The outline of a program, statement by statement. -/
def Program.outline (program : Program) : Text :=
  Text.unlines (program.flatMap (Stmt.outline 1))

end Jolt
