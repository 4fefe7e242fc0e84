import Jolt.Number.Decimal

/-!
# Instants

A point in time, read and written as date and time of day. It is always written in universal time.
-/

namespace Jolt

/-- Seconds since the start of 1970, and nanoseconds after that. -/
structure Instant where
  seconds : Int
  nanos : Nat
deriving DecidableEq

namespace Instant

/-- The days from the start of 1970 to a date. Years are counted from March, so that a leap day is the last. -/
def dayOfDate (year month day : Int) : Int :=
  let y := if month ≤ 2 then year - 1 else year
  let m := if month ≤ 2 then month + 9 else month - 3
  365 * y + y / 4 - y / 100 + y / 400 + (153 * m + 2) / 5 + day - 1 - 719468

/-- The date of a day: year, month, day. -/
def dateOfDay (d : Int) : Int × Int × Int :=
  let z := d + 719468
  let era := z / 146097
  let doe := z % 146097
  let yoe := (doe - doe / 1460 + doe / 36524 - doe / 146096) / 365
  let doy := doe - (365 * yoe + yoe / 4 - yoe / 100)
  let m := (5 * doy + 2) / 153
  let day := doy - (153 * m + 2) / 5 + 1
  let month := if m < 10 then m + 3 else m - 9
  let year := yoe + 400 * era
  (if month ≤ 2 then year + 1 else year, month, day)

/-- Nanoseconds since the start of 1970. -/
def total (t : Instant) : Int :=
  t.seconds * 1000000000 + t.nanos

/-- The whole seconds from one instant to another. -/
def secondsUntil (start stop : Instant) : Int :=
  (stop.total - start.total).tdiv 1000000000

/-- A number with zeros before it, up to a width. -/
def padded (width : Nat) (n : Int) : Text :=
  let digits := Text.ofNat n.natAbs
  List.replicate (width - digits.length) Byte.zero ++ digits

/-- The digits of a fraction of a second, without zeros at the end. -/
def fraction (nanos : Nat) : Text :=
  let kept := ((padded 9 nanos).reverse.dropWhile (· == Byte.zero)).reverse
  if kept.isEmpty then [] else Byte.dot :: kept

/-- Date and time in universal time. -/
def text (t : Instant) : Text :=
  let (year, month, day) := dateOfDay (t.seconds / 86400)
  let s := t.seconds % 86400
  padded 4 year ++ utf8 "-" ++ padded 2 month ++ utf8 "-" ++ padded 2 day ++ utf8 "T" ++ padded 2 (s / 3600)
    ++ utf8 ":" ++ padded 2 (s / 60 % 60) ++ utf8 ":" ++ padded 2 (s % 60) ++ fraction t.nanos ++ utf8 "Z"

/-- Reads `width` digits. -/
def readDigits? (width : Nat) (t : Text) : Option (Int × Text) :=
  let digits := t.take width
  if digits.length = width ∧ digits.all Text.isDigit then some (Text.toNat digits, t.drop width) else none

/-- Reads a given byte. -/
def readByte? (b : UInt8) : Text → Option Text
  | [] => none
  | c :: r => if c = b then some r else none

/-- Reads the distance from universal time, in seconds. -/
def readZone? (t : Text) : Option Int :=
  match t with
  | [] => none
  | c :: r =>
    if c = 90 ∧ r.isEmpty then some 0
    else do
      let (hours, r) ← readDigits? 2 r
      let r ← readByte? Byte.colon r
      let (minutes, r) ← readDigits? 2 r
      if !r.isEmpty then none
      else if c = Byte.plus then some (hours * 3600 + minutes * 60)
      else if c = Byte.minus then some (-(hours * 3600 + minutes * 60))
      else none

/-- Reads date, time of day and zone. -/
def read? (t : Text) : Option Instant := do
  let (year, r) ← readDigits? 4 t
  let r ← readByte? Byte.minus r
  let (month, r) ← readDigits? 2 r
  let r ← readByte? Byte.minus r
  let (day, r) ← readDigits? 2 r
  let r ← readByte? 84 r
  let (hour, r) ← readDigits? 2 r
  let r ← readByte? Byte.colon r
  let (minute, r) ← readDigits? 2 r
  let r ← readByte? Byte.colon r
  let (second, r) ← readDigits? 2 r
  let (digits, r) := match readByte? Byte.dot r with
    | some r => (r.takeWhile Text.isDigit, r.dropWhile Text.isDigit)
    | none => ([], r)
  let zone ← readZone? r
  let nanos := Text.toNat (digits.take 9) * Nat.pow 10 (9 - digits.length)
  return ⟨dayOfDate year month day * 86400 + hour * 3600 + minute * 60 + second - zone, nanos⟩

end Instant

end Jolt
