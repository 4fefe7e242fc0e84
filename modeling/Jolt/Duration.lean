import Jolt.Number
import Jolt.Text

/-!
# Durations

A duration is a number of nanoseconds in 64 bits. It is shown to the microsecond, in the unit that fits.
-/

namespace Jolt.Duration

/-- The largest duration. -/
def most : Int := Nat.pow 2 63 - 1

/-- The least duration. -/
def least : Int := -(Nat.pow 2 63)

/-- The nearest multiple of a microsecond, a tie away from zero. Beyond the range the nearest end of it is taken. -/
def roundToMicro (d : Int) : Int :=
  let whole : Int := (d.natAbs + 500) / 1000 * 1000
  if d < 0 then max least (-whole) else min most whole

/-- The last `places` digits of a number as a fraction, without zeros at its end. -/
def fraction (places n : Nat) : Text :=
  let digits := Text.ofNat (n % Nat.pow 10 places)
  let all := List.replicate (places - digits.length) Byte.zero ++ digits
  let kept := (all.reverse.dropWhile (· == Byte.zero)).reverse
  if kept.isEmpty then [] else Byte.dot :: kept

/-- A number with the point before its last `places` digits. -/
def fixed (places n : Nat) : Text :=
  Text.ofNat (n / Nat.pow 10 places) ++ fraction places n

/-- Hours, minutes and seconds from the first that is not zero. -/
def clock (n : Nat) : Text :=
  let seconds := n / Nat.pow 10 9
  let minutes := seconds / 60
  let hours := minutes / 60
  (if 0 < hours then Text.ofNat hours ++ utf8 "h" else [])
    ++ (if 0 < minutes then Text.ofNat (minutes % 60) ++ utf8 "m" else [])
    ++ Text.ofNat (seconds % 60) ++ fraction 9 n ++ utf8 "s"

/-- A duration without sign. -/
def magnitude (n : Nat) : Text :=
  if n = 0 then utf8 "0s"
  else if n < Nat.pow 10 3 then Text.ofNat n ++ utf8 "ns"
  else if n < Nat.pow 10 6 then fixed 3 n ++ utf8 "µs"
  else if n < Nat.pow 10 9 then fixed 6 n ++ utf8 "ms"
  else clock n

/-- A duration as it is shown. -/
def text (d : Int) : Text :=
  let r := roundToMicro d
  if r < 0 then utf8 "-" ++ magnitude r.natAbs else magnitude r.natAbs

end Jolt.Duration
