import Jolt.Number

/-!
# Bit patterns

The 64 bits of a number: sign, eleven bits of exponent, 52 bits of fraction.
-/

namespace Jolt.Number

/-- The 63 bits of a magnitude below the sign. Below `2 ^ 53` units they are the units themselves. -/
def magnitudeBits (units : Nat) : Nat :=
  let shift := units.log2 - 52
  shift * Nat.pow 2 52 + units / Nat.pow 2 shift

/-- The bit pattern of a number; not-a-number has the quiet pattern without payload. -/
def toBits : Number → Nat
  | nan => 0x7ff8000000000000
  | infinite s => s.toNat * Nat.pow 2 63 + 0x7ff0000000000000
  | finite s m => s.toNat * Nat.pow 2 63 + magnitudeBits m.units

/-- The number with a bit pattern of 64 bits. -/
def ofBits (bits : Nat) : Number :=
  let negative := bits / Nat.pow 2 63 % 2 == 1
  let exponent := bits / Nat.pow 2 52 % Nat.pow 2 11
  let fraction := bits % Nat.pow 2 52
  if exponent = 2047 then if fraction = 0 then infinite negative else nan
  else if exponent = 0 then ofUnits negative fraction
  else ofUnits negative ((Nat.pow 2 52 + fraction) * Nat.pow 2 (exponent - 1))

end Jolt.Number
