import Jolt.Token

/-!
# Reading tokens

`Token.scan` cuts a source into tokens. Blanks separate tokens and belong to none. The first byte of a token decides
how it is read (`Token.classify`); every token holds at least that byte, so the rest of the source gets shorter.
-/

namespace Jolt.Token

/-- The words that are keywords when a space follows them. -/
def keyword? (word : Text) : Option Kind :=
  if word = utf8 "out" then some .output
  else if word = utf8 "type" then some .type
  else if word = utf8 "if" then some .condition
  else none

/-- Whether a text starts with a byte. -/
def startsWith (b : UInt8) : Text → Bool
  | [] => false
  | c :: _ => c == b

/-- How many bytes of a text come before and with the first `b`, if there is one. -/
def through? (b : UInt8) (t : Text) : Option Nat :=
  (t.idxOf? b).map (· + 1)

/-- How many bytes continue a number that has begun: digits, then a dot and its digits. -/
def numberTail (t : Text) : Nat :=
  let whole := (t.takeWhile Text.isDigit).length
  match t.drop whole with
  | Byte.dot :: r => whole + 1 + (r.takeWhile Text.isDigit).length
  | _ => whole

/-- The kind of a word and how many bytes after its first letter belong to it. -/
def classifyWord (c : UInt8) (r : Text) : Kind × Nat :=
  let tail := r.takeWhile Text.isLetter
  match keyword? (c :: tail) with
  | some kind => (if startsWith Byte.space (r.drop tail.length) then kind else .identifier, tail.length)
  | none => (.identifier, tail.length)

/-- The kind of the token that starts with the byte `c`, which is no blank, and how many bytes of the rest `r` belong to
it. -/
def classify (c : UInt8) (r : Text) : Kind × Nat :=
  if Text.isDigit c then (.number, numberTail r)
  else if Text.isLetter c then classifyWord c r
  else if c = Byte.less then
    match through? Byte.greater r with
    | some n => (.comment, n)
    | none => (.comparison, 0)
  else if c = Byte.quote then (.string, (through? Byte.quote r).getD r.length)
  else if c = Byte.question then (.question, 0)
  else if c = Byte.colon then (.colon, 0)
  else if c = Byte.plus ∨ c = Byte.minus ∨ c = Byte.star ∨ c = Byte.slash then
    if startsWith Byte.equals r then (.equals, 1) else (.binaryOperator, 0)
  else if c = Byte.greater then (.comparison, 0)
  else if c = Byte.equals then
    if startsWith Byte.equals r then (.comparison, 1) else (.equals, 0)
  else if c = Byte.openParen then (.openParen, 0)
  else if c = Byte.closedParen then (.closedParen, 0)
  else if c = Byte.openBrace then (.openBlock, 0)
  else if c = Byte.closeBrace then (.closeBlock, 0)
  else if c = Byte.semicolon then (.endOfLine, 0)
  else (.unknown, 0)

/-- The tokens of a text that starts at `p`, closed by an end of input. -/
def scanFrom (p : Position) : Text → List Token
  | [] => [⟨[], .endOfInput, p⟩]
  | c :: r =>
    if Text.isBlank c then scanFrom (p.after c) r
    else
      let (kind, n) := classify c r
      let text := c :: r.take n
      ⟨text, kind, p⟩ :: scanFrom (p.advance text) (r.drop n)
termination_by t => t.length
decreasing_by all_goals simp only [List.length_drop, List.length_cons]; omega

/-- The tokens of a source. -/
def scan (source : Text) : List Token :=
  scanFrom .start source

end Jolt.Token
