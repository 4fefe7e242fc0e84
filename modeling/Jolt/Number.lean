/-!
# Numbers

The numbers of the language are the binary64 values. A finite one is a whole number of units of `2 ^ -1074`, the
distance of the two smallest, with a sign; which whole numbers occur is said by `OnGrid`. Rounding, order and
arithmetic are then exact integer computations.

- `Number.ofQuotient` rounds a quotient of naturals to the nearest number, a tie to the even neighbour;
- `Number.rank` places the numbers other than not-a-number on the integers, and `Number.lt`, `Number.eq` compare there.
-/

namespace Jolt

/-- A natural number of units that binary64 can hold: at most 53 significant bits, and below the overflow bound. -/
def OnGrid (units : Nat) : Prop :=
  Nat.pow 2 (units.log2 - 52) ∣ units ∧ units < Nat.pow 2 2098

instance (units : Nat) : Decidable (OnGrid units) :=
  inferInstanceAs (Decidable (_ ∧ _))

/-- The absolute value of a finite number, in units of `2 ^ -1074`. -/
structure Magnitude where
  units : Nat
  onGrid : OnGrid units
deriving DecidableEq

/-- A binary64 value. There is one not-a-number, and zero has a sign. -/
inductive Number where
  | nan
  | infinite (negative : Bool)
  | finite (negative : Bool) (magnitude : Magnitude)
deriving DecidableEq

/-- The magnitude zero. -/
def Magnitude.zero : Magnitude :=
  ⟨0, Nat.dvd_zero _, Nat.two_pow_pos 2098⟩

namespace Number

/-- How many units make one. -/
def unitsPerOne : Nat :=
  Nat.pow 2 1074

/-- The number zero, with a sign. -/
def zero (negative : Bool) : Number :=
  finite negative Magnitude.zero

instance : Inhabited Number :=
  ⟨zero false⟩

/-! ## Rounding -/

/-- A quotient to the nearest integer, a tie to the even one. -/
def roundQuotient (num den : Nat) : Nat :=
  let q := num / den
  let r := num % den
  if 2 * r < den then q
  else if den < 2 * r then q + 1
  else q + q % 2

/-- The nearest point to `num / den` units of a grid that has 53 significant bits and no end. -/
def nearestPoint (num den : Nat) : Nat :=
  let step := Nat.pow 2 ((num / den).log2 - 52)
  roundQuotient num (den * step) * step

/-- A number of units on the grid is finite; beyond the grid it is infinite. -/
def ofUnits (negative : Bool) (units : Nat) : Number :=
  if h : OnGrid units then finite negative ⟨units, h⟩ else infinite negative

/-- The number nearest to `num / den` units. -/
def ofQuotient (negative : Bool) (num den : Nat) : Number :=
  ofUnits negative (nearestPoint num den)

/-- The number nearest to a natural number. -/
def ofNat (n : Nat) : Number :=
  ofQuotient false (n * unitsPerOne) 1

/-- The number of a truth value. -/
def ofBool (b : Bool) : Number :=
  if b then ofNat 1 else zero false

/-! ## Order -/

/-- A natural number with a sign. -/
def signed (negative : Bool) (n : Nat) : Int :=
  if negative then -(n : Int) else n

/-- The place of a number among the integers: its units, with the infinities just beyond the grid. -/
def rank : Number → Option Int
  | nan => none
  | infinite s => some (signed s (Nat.pow 2 2098))
  | finite s m => some (signed s m.units)

/-- Whether one number is below another. Not-a-number is below and above nothing. -/
def lt (a b : Number) : Bool :=
  match a.rank, b.rank with
  | some x, some y => x < y
  | _, _ => false

/-- Equality of value: the two zeros are equal, not-a-number equals nothing. -/
def eq (a b : Number) : Bool :=
  match a.rank, b.rank with
  | some x, some y => x == y
  | _, _ => false

/-- Whether a number is not-a-number. -/
def isNan : Number → Bool
  | nan => true
  | _ => false

/-- Whether a number is zero, of either sign. -/
def isZero : Number → Bool
  | finite _ m => m.units == 0
  | _ => false

/-- Whether a number is finite. -/
def isFinite : Number → Bool
  | finite _ _ => true
  | _ => false

end Number

end Jolt
