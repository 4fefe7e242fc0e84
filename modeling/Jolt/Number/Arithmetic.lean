import Jolt.Number

/-!
# Arithmetic

Each operation computes its exact result in units and rounds once.
-/

namespace Jolt.Number

/-- The same number with the other sign. -/
def neg : Number → Number
  | nan => nan
  | infinite s => infinite (!s)
  | finite s m => finite (!s) m

/-- The number nearest to a whole number of units; `zeroSign` is the sign of an exact zero. -/
def ofSignedUnits (zeroSign : Bool) (x : Int) : Number :=
  if x = 0 then zero zeroSign else ofQuotient (x < 0) x.natAbs 1

/-- The sum. Infinities of different sign have none; a zero sum is negative only if both sides are negative. -/
def add : Number → Number → Number
  | nan, _ | _, nan => nan
  | infinite s, infinite t => if s = t then infinite s else nan
  | infinite s, finite _ _ => infinite s
  | finite _ _, infinite t => infinite t
  | finite s m, finite t n => ofSignedUnits (s && t) (signed s m.units + signed t n.units)

/-- The difference. -/
def sub (a b : Number) : Number :=
  add a (neg b)

/-- The product. Zero times an infinity has none. -/
def mul : Number → Number → Number
  | nan, _ | _, nan => nan
  | infinite s, infinite t => infinite (s != t)
  | infinite s, finite t n => if n.units = 0 then nan else infinite (s != t)
  | finite s m, infinite t => if m.units = 0 then nan else infinite (s != t)
  | finite s m, finite t n => ofQuotient (s != t) (m.units * n.units) unitsPerOne

/-- The quotient. A nonzero number by zero is infinite; zero by zero and infinity by infinity have none. -/
def div : Number → Number → Number
  | nan, _ | _, nan => nan
  | infinite _, infinite _ => nan
  | infinite s, finite t _ => infinite (s != t)
  | finite s _, infinite t => zero (s != t)
  | finite s m, finite t n =>
    if n.units = 0 then if m.units = 0 then nan else infinite (s != t)
    else ofQuotient (s != t) (m.units * unitsPerOne) n.units

end Jolt.Number
