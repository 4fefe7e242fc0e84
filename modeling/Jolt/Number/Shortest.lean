import Jolt.Number.Decimal

/-!
# The fewest digits that read back

Among the decimals that read back as a given number, `Magnitude.shortest` takes one on the coarsest grid `10 ^ e` that has
any, there the nearest, and of two equally near ones the even one.
-/

namespace Jolt

namespace Decimal

/-- Drops the zeros at the end of a coefficient, at most `fuel` of them. -/
def stripZeros : Nat → Decimal → Decimal
  | 0, d => d
  | fuel + 1, d =>
    if d.coefficient ≠ 0 ∧ d.coefficient % 10 = 0 then stripZeros fuel ⟨d.coefficient / 10, d.exponent + 1⟩ else d

end Decimal

namespace Magnitude

/-- Whether a decimal reads back as the magnitude. -/
def readsBack (m : Magnitude) (d : Decimal) : Bool :=
  Number.ofDecimal false d == .finite false m

/-- The nearer of the two neighbours on the grid `10 ^ e` that reads back, if one does. -/
def onDecimalGrid? (m : Magnitude) (e : Int) : Option Decimal :=
  let num := m.units * Nat.pow 10 (-e).toNat
  let den := Number.unitsPerOne * Nat.pow 10 e.toNat
  let below : Decimal := ⟨num / den, e⟩
  let above : Decimal := ⟨num / den + 1, e⟩
  let nearest := if Number.roundQuotient num den = num / den then [below, above] else [above, below]
  nearest.find? m.readsBack

/-- The exponent of a power of ten that is above the magnitude, or at most one place below it. -/
def topExponent (m : Magnitude) : Int :=
  ((m.units.log2 : Int) - 1074) * 30103 / 100000 + 1

/-- The magnitude itself as a decimal, with all its digits. -/
def exactDecimal (m : Magnitude) : Decimal :=
  ⟨m.units * Nat.pow 5 1074, -1074⟩

/-- The decimal with the fewest digits that reads back. Twenty grids are enough, since seventeen digits always are. -/
def shortest (m : Magnitude) : Decimal :=
  if m.units = 0 then ⟨0, 0⟩
  else
    let grids := (List.range 20).map fun (i : Nat) => m.topExponent - i
    let d := (grids.findSome? m.onDecimalGrid?).getD m.exactDecimal
    Decimal.stripZeros 2000 d

end Magnitude

end Jolt
