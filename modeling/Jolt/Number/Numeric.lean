import Jolt.Number.Literal
import Jolt.Text.Blank

/-!
# Strings as numbers

`Number.ofText` converts a string where a number is needed. White space around it does not count, nothing is zero, and
what is no numeral is not-a-number.
-/

namespace Jolt.Number

/-- The base that a mark after a leading zero announces. -/
def baseOfMark? (b : UInt8) : Option Nat :=
  let c := Text.lower b
  if c = 120 then some 16 else if c = 111 then some 8 else if c = 98 then some 2 else none

/-- Whether a byte is a digit of a base. -/
def isDigitOf (base : Nat) (b : UInt8) : Bool :=
  match Literal.digit? b with
  | some d => d < base
  | none => false

/-- Digits of a base, for a value of at most 64 bits. -/
def ofBaseDigits (base : Nat) (digits : Text) : Number :=
  let value := Literal.valueOf base digits
  if digits.all (isDigitOf base) && value < Nat.pow 2 64 then ofNat value else nan

/-- Whether a text is nothing or an exponent: its mark, an optional sign, and digits. -/
def isExponent : Text → Bool
  | [] => true
  | mark :: r =>
    let (digits, rest) := Text.spanDigits (Text.signed r).2
    (mark = 101 || mark = 69) && !digits.isEmpty && rest.isEmpty

/-- Whether a text is a decimal numeral: an optional sign, digits with at most one dot and at least one digit, and an
optional exponent. -/
def isDecimal (t : Text) : Bool :=
  let (whole, rest) := t.signed.2.spanDigits
  let (fraction, rest) := match rest with
    | Byte.dot :: r => Text.spanDigits r
    | r => ([], r)
  !(whole.isEmpty && fraction.isEmpty) && isExponent rest

/-- The value of an unmarked numeral: a word for infinity, or a decimal. Other literals do not count. -/
def ofDecimalText (t : Text) : Number :=
  if t = utf8 "Infinity" ∨ t = utf8 "+Infinity" then infinite false
  else if t = utf8 "-Infinity" then infinite true
  else if isDecimal t then (Literal.read? t).getD nan
  else nan

/-- The number a string stands for. -/
def ofText (s : Text) : Number :=
  match s.trim with
  | [] => zero false
  | Byte.zero :: mark :: c :: r =>
    match baseOfMark? mark with
    | some base => ofBaseDigits base (c :: r)
    | none => ofDecimalText (Byte.zero :: mark :: c :: r)
  | t => ofDecimalText t

end Jolt.Number
