import Jolt.Number.Literal

/-!
# Integer numerals

An integer is written with an optional sign in decimal or, after a mark, in base two, eight or sixteen; a leading zero alone
marks base eight. Underscores may stand between digits. Integers have 64 bits.
-/

namespace Jolt.Integer

/-- Why a text gives no integer. -/
inductive Flaw where
  | malformed
  | outOfRange
deriving DecidableEq

/-- The base that a mark letter stands for. -/
def baseOf? (mark : UInt8) : Option Nat :=
  match Text.lower mark with
  | 98 => some 2
  | 111 => some 8
  | 120 => some 16
  | _ => none

/-- The base of a numeral and its digits. A mark needs something after it. -/
def digitsOf : Text → Nat × Text
  | Byte.zero :: mark :: c :: r =>
    match baseOf? mark with
    | some base => (base, c :: r)
    | none => (8, mark :: c :: r)
  | Byte.zero :: r => (8, r)
  | t => (10, t)

/-- The value of digits after a value that has been read. The first byte that is wrong or too much decides. -/
def readDigits (base : Nat) : Nat → Text → Except Flaw Nat
  | n, [] => .ok n
  | n, c :: r =>
    if c = Byte.underscore then readDigits base n r
    else match Number.Literal.digit? c with
      | none => .error .malformed
      | some d =>
        if base ≤ d then .error .malformed
        else if Nat.pow 2 64 ≤ base * n + d then .error .outOfRange
        else readDigits base (base * n + d) r

/-- Whether the underscores of a numeral are in place. -/
def underscoresInPlace (t : Text) : Bool :=
  match t with
  | Byte.zero :: mark :: r =>
    match baseOf? mark with
    | some base =>
      Number.Literal.underscoresInPlace (if base = 16 then Number.Literal.isHexDigit else Text.isDigit) true false r
    | none => Number.Literal.underscoresInPlace Text.isDigit false false t
  | t => Number.Literal.underscoresInPlace Text.isDigit false false t

/-- Reads a numeral without sign, below `2 ^ 64`. -/
def readUnsigned (t : Text) : Except Flaw Nat :=
  if t.isEmpty then .error .malformed
  else do
    let (base, digits) := digitsOf t
    let n ← readDigits base 0 digits
    if t.contains Byte.underscore && !underscoresInPlace t then .error .malformed else .ok n

/-- Reads an integer, from `-2 ^ 63` up to and without `2 ^ 63`. -/
def read (t : Text) : Except Flaw Int := do
  let (negative, t) := t.signed
  let n ← readUnsigned t
  if negative then if n ≤ Nat.pow 2 63 then .ok (-(n : Int)) else .error .outOfRange
  else if n < Nat.pow 2 63 then .ok n else .error .outOfRange

end Jolt.Integer
