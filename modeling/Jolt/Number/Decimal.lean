import Jolt.Number
import Jolt.Text

/-!
# Decimal numerals

`Decimal.read?` reads a numeral: a sign, digits with at most one dot, an exponent after `e`. `Number.ofDecimal` rounds its
value to the nearest number.
-/

namespace Jolt

/-- The value `coefficient * 10 ^ exponent`. -/
structure Decimal where
  coefficient : Nat
  exponent : Int
deriving DecidableEq

/-- The number nearest to a decimal.

The first two cases only save work: a nonzero coefficient times `10 ^ 342` is more than `2 ^ 1024`, and
`c * 10 ^ e < 2 ^ (log2 c + 1 + 3 * e)` for a negative `e`, which is less than half a unit there. -/
def Number.ofDecimal (negative : Bool) (d : Decimal) : Number :=
  if d.coefficient = 0 then zero negative
  else if 342 ≤ d.exponent then infinite negative
  else if d.exponent < 0 ∧ d.coefficient.log2 + 1077 + 3 * d.exponent < 0 then zero negative
  else ofQuotient negative (d.coefficient * unitsPerOne * Nat.pow 10 d.exponent.toNat) (Nat.pow 10 (-d.exponent).toNat)

/-- The value of digits in decimal. -/
def Text.toNat (digits : Text) : Nat :=
  digits.foldl (fun n b => 10 * n + (b.toNat - 48)) 0

/-- Takes an optional sign off the front; the flag says that it was a minus. -/
def Text.signed : Text → Bool × Text
  | [] => (false, [])
  | c :: r => if c = Byte.minus then (true, r) else if c = Byte.plus then (false, r) else (false, c :: r)

/-- The digits at the front, and what follows them. -/
def Text.spanDigits (t : Text) : Text × Text :=
  (t.takeWhile Text.isDigit, t.dropWhile Text.isDigit)

namespace Decimal

/-- Digits with at most one dot among or beside them, at least one digit: the digits before and after the dot, and
what follows. -/
def readMantissa? (t : Text) : Option (Text × Text × Text) :=
  let (whole, rest) := t.spanDigits
  let (fraction, rest) := match rest with
    | Byte.dot :: r => Text.spanDigits r
    | r => ([], r)
  if whole.isEmpty && fraction.isEmpty then none else some (whole, fraction, rest)

/-- The value of the digits of an exponent. Digits behind one that makes it ten thousand or more do not count. -/
def exponentOf (digits : Text) : Nat :=
  digits.foldl (fun n b => if n < 10000 then 10 * n + (b.toNat - 48) else n) 0

/-- An exponent that ends the text: the mark `mark` in either case, an optional sign, digits. No exponent is `0`. -/
def readExponent? (mark : UInt8) : Text → Option Int
  | [] => some 0
  | c :: r =>
    let (negative, digits) := Text.signed r
    if Text.lower c = mark ∧ !digits.isEmpty ∧ digits.all Text.isDigit then
      some (Number.signed negative (exponentOf digits))
    else none

/-- A numeral without sign that fills the text. -/
def readUnsigned? (t : Text) : Option Decimal := do
  let (whole, fraction, rest) ← readMantissa? t
  let exponent ← readExponent? 101 rest
  return ⟨Text.toNat (whole ++ fraction), exponent - fraction.length⟩

/-- A numeral that fills the text, and whether it is negative. -/
def read? (t : Text) : Option (Bool × Decimal) :=
  let (negative, t) := t.signed
  (readUnsigned? t).map (negative, ·)

end Decimal

end Jolt
