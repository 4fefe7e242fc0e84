import Jolt.Number.Literal
import Jolt.Yaml.Mark

/-!
# Plain and quoted scalars

Line breaks inside a plain or a quoted scalar are folded: one becomes a space, of several the first is dropped. Double
quotes allow escapes.
-/

namespace Jolt.Yaml

/-- White space that was read and has not become part of a scalar: blanks, or line breaks from the first one on. -/
inductive Gap where
  | blanks (reversed : List Char)
  | breaks (first : Option Char) (others : List Char)

namespace Gap

/-- No white space. -/
def none : Gap :=
  blanks []

/-- Whether there is no white space. -/
def isNone : Gap → Bool
  | blanks [] => true
  | _ => false

/-- Whether a line has ended. -/
def isBreaks : Gap → Bool
  | breaks _ _ => true
  | _ => false

/-- One more blank. Those after a line break do not count. -/
def blank (c : Char) : Gap → Gap
  | blanks r => blanks (c :: r)
  | g => g

/-- One more line break. -/
def lineBreak (c : Char) : Gap → Gap
  | blanks _ => breaks (some (breakChar c)) []
  | breaks first others => breaks first (breakChar c :: others)

/-- What a gap becomes inside a scalar, in reverse. -/
def folded : Gap → List Char
  | blanks r => r
  | breaks (some '\n') [] => [' ']
  | breaks (some '\n') others => others
  | breaks (some c) others => others ++ [c]
  | breaks Option.none others => others

end Gap

/-- A scalar that was read, and where the stream goes on. -/
structure ScalarEnd where
  text : List Char
  rest : List Char
  mark : Mark
  /-- Whether a line break was read after the scalar. -/
  crossedLine : Bool

/-- Whether a plain scalar ends before these characters. -/
def endsPlain (inFlow : Bool) : List Char → Bool
  | [] => true
  | c :: cs =>
    (c = ':' && atWordEnd cs)
      || (inFlow && (c = ',' || c = '[' || c = ']' || c = '\x7b' || c = '\x7d' || c = '?'))

/-- Reads a plain scalar. In a block its lines have to be indented by at least `indent`. -/
def readPlain (inFlow : Bool) (indent : Int) (start : Mark) :
    List Char → Mark → Gap → List Char → Except Problem ScalarEnd
  | [], m, gap, done => .ok ⟨done.reverse, [], m, gap.isBreaks⟩
  | c :: cs, m, gap, done =>
    if isBlank c then
      if gap.isBreaks && decide (m.column < indent) && c = '\t' then
        .error (.ofCharacters start m "found a tab character that violates indentation")
      else readPlain inFlow indent start cs m.next (gap.blank c) done
    else if isBreak c then
      match c, cs with
      | '\r', '\n' :: cs => readPlain inFlow indent start cs (m.nextLine 2) (gap.lineBreak c) done
      | _, cs => readPlain inFlow indent start cs (m.nextLine 1) (gap.lineBreak c) done
    else if (!gap.isNone && (c = '#' || (!inFlow && decide (m.column < indent))))
        || (m.column = 0 && atDocumentMark (c :: cs)) || endsPlain inFlow (c :: cs) then
      .ok ⟨done.reverse, c :: cs, m, gap.isBreaks⟩
    else readPlain inFlow indent start cs m.next .none (c :: gap.folded ++ done)

/-- The characters that a letter after a backslash stands for. -/
def escape? (c : Char) : Option Char :=
  match c with
  | '0' => some (Char.ofNat 0)
  | 'a' => some (Char.ofNat 7)
  | 'b' => some (Char.ofNat 8)
  | 't' | '\t' => some '\t'
  | 'n' => some '\n'
  | 'v' => some (Char.ofNat 11)
  | 'f' => some (Char.ofNat 12)
  | 'r' => some '\r'
  | 'e' => some (Char.ofNat 27)
  | ' ' => some ' '
  | '"' => some '"'
  | '\'' => some '\''
  | '\\' => some '\\'
  | 'N' => some (Char.ofNat 0x85)
  | '_' => some (Char.ofNat 0xa0)
  | 'L' => some (Char.ofNat 0x2028)
  | 'P' => some (Char.ofNat 0x2029)
  | _ => none

/-- How many digits the code of a character has after this letter. -/
def codeLength? (c : Char) : Option Nat :=
  match c with
  | 'x' => some 2
  | 'u' => some 4
  | 'U' => some 8
  | _ => none

/-- The value of a hexadecimal digit. -/
def hexValue? (c : Char) : Option Nat :=
  if c.val < 128 then Number.Literal.digit? c.val.toUInt8 else none

/-- A double-quoted scalar is read in this state: between characters, or inside the code of one. -/
inductive QuoteState where
  | text (gap : Gap)
  | code (left value : Nat)

/-- Reads a quoted scalar behind its opening quote. What is wrong with the stream at its end, if anything, is `behind`. -/
def readQuoted (single : Bool) (start : Mark) (behind : Option Problem) :
    List Char → Mark → QuoteState → List Char → Except Problem ScalarEnd
  | [], m, .code (_ + 1) _, _ =>
    .error (behind.getD (.ofCharacters start m "did not find expected hexdecimal number"))
  | [], m, _, _ => .error (behind.getD (.ofCharacters start m "found unexpected end of stream"))
  | c :: cs, m, .code (left + 1) value, done =>
    match hexValue? c with
    | none => .error (.ofCharacters start m "did not find expected hexdecimal number")
    | some d =>
      let value := 16 * value + d
      if left ≠ 0 then readQuoted single start behind cs m.next (.code left value) done
      else if (0xd800 ≤ value && value ≤ 0xdfff) || 0x10ffff < value then
        .error (.ofCharacters start m "found invalid Unicode character escape code")
      else readQuoted single start behind cs m.next (.text .none) (Char.ofNat value :: done)
  | c :: cs, m, .code 0 _, done => readQuoted single start behind cs m.next (.text .none) (c :: done)
  | c :: cs, m, .text gap, done =>
    let quote := if single then '\'' else '"'
    if m.column = 0 && atDocumentMark (c :: cs) then
      .error (.ofCharacters start m "found unexpected document indicator")
    else if isBlank c then readQuoted single start behind cs m.next (.text (gap.blank c)) done
    else if isBreak c then
      match c, cs with
      | '\r', '\n' :: cs => readQuoted single start behind cs (m.nextLine 2) (.text (gap.lineBreak c)) done
      | _, cs => readQuoted single start behind cs (m.nextLine 1) (.text (gap.lineBreak c)) done
    else if c = quote then
      match single, cs with
      | true, '\'' :: cs => readQuoted single start behind cs m.next.next (.text .none) ('\'' :: gap.folded ++ done)
      | _, cs => .ok ⟨(gap.folded ++ done).reverse, cs, m.next, false⟩
    else if !single && c = '\\' then
      let done := gap.folded ++ done
      match cs with
      | [] => .error (behind.getD (.ofCharacters start m "found unknown escape character"))
      | '\r' :: '\n' :: cs => readQuoted single start behind cs (m.nextLine 3) (.text (.breaks none [])) done
      | e :: cs =>
        if isBreak e then readQuoted single start behind cs (m.nextLine 2) (.text (.breaks none [])) done
        else match escape? e, codeLength? e with
          | some x, _ => readQuoted single start behind cs m.next.next (.text .none) (x :: done)
          | none, some n => readQuoted single start behind cs m.next.next (.code n 0) done
          | none, none => .error (.ofCharacters start m "found unknown escape character")
    else readQuoted single start behind cs m.next (.text .none) (c :: gap.folded ++ done)

end Jolt.Yaml
