import Jolt.Number.Numeral

/-!
# Values
-/

namespace Jolt

/-- A value at run time. A name can also be bound without a value; that is `absent`, which no expression makes. -/
inductive Value where
  | number (x : Number)
  | string (s : Text)
  | boolean (b : Bool)
  | undefined
  | absent
deriving DecidableEq, Inhabited

namespace Value

/-- Drops the zeros that pad an exponent. -/
def trimExponent (t : Text) : Text :=
  match t.dropWhile (· ≠ 101) with
  | mark :: sign :: c :: r =>
    let digits := (c :: r).dropWhile (· = Byte.zero)
    t.takeWhile (· ≠ 101) ++ [mark, sign] ++ if digits.isEmpty then [Byte.zero] else digits
  | _ => t

/-- Whether a magnitude is shown with an exponent: from `1e21` on, and below a millionth. -/
def isScientific (m : Magnitude) : Bool :=
  let size := Number.finite false m
  !size.lt (.ofDecimal false ⟨1, 21⟩) || size.lt (.ofDecimal false ⟨1, -6⟩)

/-- The text of a number. Zero has no sign there, and an exponent no padding. -/
def numberText : Number → Text
  | .nan => utf8 "NaN"
  | .infinite negative => if negative then utf8 "-Infinity" else utf8 "Infinity"
  | .finite negative m =>
    if m.units = 0 then utf8 "0"
    else if isScientific m then trimExponent ((Number.finite negative m).write .general)
    else (Number.finite negative m).write .inPlace

/-- The name of the type of a value. The absent value has no type. -/
def typeName? : Value → Option Text
  | number _ => some (utf8 "number")
  | string _ => some (utf8 "string")
  | boolean _ => some (utf8 "boolean")
  | undefined => some (utf8 "undefined")
  | absent => none

/-- The text of a truth value. -/
def boolText (b : Bool) : Text :=
  if b then utf8 "true" else utf8 "false"

/-- The text of a value. -/
def text : Value → Text
  | number x => numberText x
  | string s => s
  | boolean b => boolText b
  | undefined => utf8 "undefined"
  | absent => []

/-- Whether a value selects the first branch. Zero, not-a-number, the empty string, false and undefined do not. -/
def truthy : Value → Bool
  | boolean b => b
  | number x => !x.isZero && !x.isNan
  | string s => !s.isEmpty
  | undefined | absent => false

/-- Whether a value is one other than undefined. -/
def isDefined : Value → Bool
  | undefined | absent => false
  | _ => true

end Value

end Jolt
