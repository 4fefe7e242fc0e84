import Jolt.Number.Decimal

/-!
# Number literals

The text of a number token, which has to be finite where it is written in digits. Beside decimal numerals it may be
a hexadecimal one with a binary exponent, or a word for infinity or not-a-number; underscores may stand between digits.
-/

namespace Jolt.Number

/-- The number nearest to `c * 2 ^ e`. The first two cases only save work, as for decimals. -/
def ofBinary (negative : Bool) (c : Nat) (e : Int) : Number :=
  if c = 0 then zero negative
  else if 1100 ≤ e then infinite negative
  else if e + 1076 + c.log2 < 0 then zero negative
  else ofQuotient negative (c * unitsPerOne * Nat.pow 2 e.toNat) (Nat.pow 2 (-e).toNat)

namespace Literal

/-- The value of a digit in bases up to sixteen, in either case. -/
def digit? (b : UInt8) : Option Nat :=
  let c := Text.lower b
  if Text.isDigit c then some (c.toNat - 48)
  else if 97 ≤ c && c ≤ 102 then some (c.toNat - 87)
  else none

/-- A hexadecimal digit. -/
def isHexDigit (b : UInt8) : Bool :=
  (digit? b).isSome

/-- The value of digits in a base; a byte that is no digit counts as zero. -/
def valueOf (base : Nat) (digits : Text) : Nat :=
  digits.foldl (fun n b => base * n + (digit? b).getD 0) 0

/-- Whether every underscore stands between two digits, or between the base mark and a digit. `afterDigit` says that the
byte before was a digit and `afterUnderscore` that it was an underscore. -/
def underscoresInPlace (isDigit : UInt8 → Bool) (afterDigit afterUnderscore : Bool) : Text → Bool
  | [] => !afterUnderscore
  | c :: r =>
    if isDigit c then underscoresInPlace isDigit true false r
    else if c = Byte.underscore then afterDigit && underscoresInPlace isDigit false true r
    else !afterUnderscore && underscoresInPlace isDigit false false r

/-- What follows the mark `0x` of a hexadecimal numeral. -/
def afterHexMark? : Text → Option Text
  | Byte.zero :: x :: r => if Text.lower x = 120 then some r else none
  | _ => none

/-- Digits, a dot and a binary exponent, which is required, after the hexadecimal mark. -/
def readHex? (negative : Bool) (t : Text) : Option Number :=
  let whole := t.takeWhile isHexDigit
  let (fraction, rest) := match t.dropWhile isHexDigit with
    | Byte.dot :: r => (r.takeWhile isHexDigit, r.dropWhile isHexDigit)
    | r => ([], r)
  if (whole.isEmpty && fraction.isEmpty) || rest.isEmpty then none
  else do
    let exponent ← Decimal.readExponent? 112 rest
    return ofBinary negative (valueOf 16 (whole ++ fraction)) (exponent - 4 * fraction.length)

/-- Whether two texts agree up to the case of ASCII letters, the second being in small letters. -/
def isWord (t word : Text) : Bool :=
  t.map Text.lower == word

/-- A numeral in digits. -/
def readNumeral? (negative : Bool) (t : Text) : Option Number :=
  let plain := t.filter (· ≠ Byte.underscore)
  match afterHexMark? t with
  | some digits =>
    if underscoresInPlace isHexDigit true false digits then (afterHexMark? plain).bind (readHex? negative) else none
  | none =>
    if underscoresInPlace Text.isDigit false false t then
      (Decimal.readUnsigned? plain).map (ofDecimal negative)
    else none

/-- The number that a literal of any kind stands for. A numeral that is too large gives an infinity. -/
def read? (t : Text) : Option Number :=
  let (negative, unsigned) := t.signed
  if isWord unsigned (utf8 "inf") || isWord unsigned (utf8 "infinity") then some (infinite negative)
  else if isWord t (utf8 "nan") then some nan
  else readNumeral? negative unsigned

end Literal

open Literal in
/-- The number that a literal stands for. A numeral that rounds to infinity is no literal. -/
def ofLiteral? (t : Text) : Option Number :=
  let (negative, unsigned) := t.signed
  if isWord unsigned (utf8 "inf") || isWord unsigned (utf8 "infinity") then some (infinite negative)
  else if isWord t (utf8 "nan") then some nan
  else (readNumeral? negative unsigned).filter isFinite

end Jolt.Number
