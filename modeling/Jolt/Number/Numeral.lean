import Jolt.Number.Shortest

/-!
# Numerals

How a number is written: the fewest digits that read back, set positionally or with an exponent. What varies from one
use to the next is a `NumeralStyle`.
-/

namespace Jolt

/-- Decisions on how numbers are written. -/
structure NumeralStyle where
  /-- The decimal exponents of the leading digit that are written positionally. -/
  positional : Int → Bool
  /-- The least number of digits in an exponent. -/
  exponentWidth : Nat
  /-- Whether the sign of zero is written. -/
  signedZero : Bool
  nan : Text
  infinity : Text
  negativeInfinity : Text

namespace NumeralStyle

/-- All digits in place, and a sign also on zero. -/
def inPlace : NumeralStyle where
  positional _ := true
  exponentWidth := 2
  signedZero := true
  nan := utf8 "NaN"
  infinity := utf8 "+Inf"
  negativeInfinity := utf8 "-Inf"

/-- An exponent, of two digits or more, below `1e-4` and from `1e6` on. -/
def general : NumeralStyle :=
  { inPlace with positional := fun e => -4 ≤ e && e < 6 }

end NumeralStyle

namespace Decimal

/-- The digits of the coefficient. -/
def digits (d : Decimal) : Text :=
  Text.ofNat d.coefficient

/-- The exponent of the leading digit. -/
def leading (d : Decimal) : Int :=
  d.exponent + d.digits.length - 1

/-- All digits in place, with a dot where there is a fraction. -/
def positional (d : Decimal) : Text :=
  let point := d.exponent + d.digits.length
  if point ≤ 0 then utf8 "0." ++ List.replicate (-point).toNat Byte.zero ++ d.digits
  else if 0 ≤ d.exponent then d.digits ++ List.replicate d.exponent.toNat Byte.zero
  else d.digits.take point.toNat ++ [Byte.dot] ++ d.digits.drop point.toNat

/-- The leading digit, the others after a dot, and the exponent with its sign. -/
def scientific (exponentWidth : Nat) (d : Decimal) : Text :=
  let exponent := Text.ofNat d.leading.natAbs
  let rest := d.digits.drop 1
  d.digits.take 1 ++ (if rest.isEmpty then [] else Byte.dot :: rest)
    ++ [101, if d.leading < 0 then Byte.minus else Byte.plus]
    ++ List.replicate (exponentWidth - exponent.length) Byte.zero ++ exponent

end Decimal

namespace Number

/-- A magnitude in a style. -/
def writeMagnitude (style : NumeralStyle) (m : Magnitude) : Text :=
  let d := m.shortest
  if style.positional d.leading then d.positional else d.scientific style.exponentWidth

/-- A number in a style. -/
def write (style : NumeralStyle) : Number → Text
  | nan => style.nan
  | infinite s => if s then style.negativeInfinity else style.infinity
  | finite s m =>
    if s && (style.signedZero || m.units != 0) then Byte.minus :: writeMagnitude style m else writeMagnitude style m

end Number

end Jolt
