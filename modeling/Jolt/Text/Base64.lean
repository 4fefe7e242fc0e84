import Jolt.Text

/-!
# Base 64

Three bytes are written as four letters of six bits each. One or two equals signs fill up the last four letters.
-/

namespace Jolt.Text

/-- The value of a letter in base 64. -/
def sextet? (b : UInt8) : Option Nat :=
  if 65 ≤ b && b ≤ 90 then some (b.toNat - 65)
  else if 97 ≤ b && b ≤ 122 then some (b.toNat - 71)
  else if 48 ≤ b && b ≤ 57 then some (b.toNat + 4)
  else if b = 43 then some 62
  else if b = 47 then some 63
  else none

/-- The bytes of letters in base 64 without line breaks. -/
def ofSextets? : Text → Option Text
  | [] => some []
  | [a, b, Byte.equals, Byte.equals] => do
    let n := 64 * (← sextet? a) + (← sextet? b)
    return [UInt8.ofNat (n / 16)]
  | [a, b, c, Byte.equals] => do
    let n := 64 * (64 * (← sextet? a) + (← sextet? b)) + (← sextet? c)
    return [UInt8.ofNat (n / 1024), UInt8.ofNat (n / 4)]
  | a :: b :: c :: d :: rest => do
    let n := 64 * (64 * (64 * (← sextet? a) + (← sextet? b)) + (← sextet? c)) + (← sextet? d)
    return UInt8.ofNat (n / 65536) :: UInt8.ofNat (n / 256) :: UInt8.ofNat n :: (← ofSextets? rest)
  | _ => none

/-- The bytes of a text in base 64. Line breaks in it do not count. -/
def ofBase64? (t : Text) : Option Text :=
  ofSextets? (t.filter fun b => b ≠ Byte.lineFeed && b ≠ Byte.carriageReturn)

end Jolt.Text
