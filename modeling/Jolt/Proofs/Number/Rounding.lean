import Jolt.Number.Decimal
import Mathlib.Tactic.Ring

/-!
# Rounding

The number nearest to a quotient depends on the value of the quotient only (`Number.ofQuotient_congr`), and a quotient on
the grid is not moved (`Number.nearestPoint_onGrid`). For decimals, the two cases of `Number.ofDecimal` that save work say
what rounding would (`Number.ofDecimal_eq`), so equal decimals are the same number (`Number.ofDecimal_congr`).
-/

namespace Jolt.Number

/-! ## Quotients -/

theorem roundQuotient_mul_left {k : Nat} (hk : 0 < k) (num den : Nat) :
    roundQuotient (k * num) (k * den) = roundQuotient num den := by
  have hlt : 2 * (k * (num % den)) < k * den ↔ 2 * (num % den) < den := by
    rw [Nat.mul_left_comm]
    exact Nat.mul_lt_mul_left hk
  have hgt : k * den < 2 * (k * (num % den)) ↔ den < 2 * (num % den) := by
    rw [Nat.mul_left_comm]
    exact Nat.mul_lt_mul_left hk
  simp only [roundQuotient, Nat.mul_div_mul_left _ _ hk, Nat.mul_mod_mul_left, hlt, hgt]

theorem nearestPoint_mul_left {k : Nat} (hk : 0 < k) (num den : Nat) :
    nearestPoint (k * num) (k * den) = nearestPoint num den := by
  simp only [nearestPoint, Nat.mul_div_mul_left _ _ hk, Nat.mul_assoc, roundQuotient_mul_left hk]

/-- Equal quotients are rounded to the same number. -/
theorem ofQuotient_congr {negative : Bool} {n₁ d₁ n₂ d₂ : Nat} (h₁ : 0 < d₁) (h₂ : 0 < d₂) (h : n₁ * d₂ = n₂ * d₁) :
    ofQuotient negative n₁ d₁ = ofQuotient negative n₂ d₂ := by
  have : nearestPoint n₁ d₁ = nearestPoint n₂ d₂ := by
    rw [← nearestPoint_mul_left h₂ n₁ d₁, ← nearestPoint_mul_left h₁ n₂ d₂, Nat.mul_comm d₂ n₁, h, Nat.mul_comm n₂ d₁,
      Nat.mul_comm d₂ d₁]
  simp only [ofQuotient, this]

theorem roundQuotient_mul {den : Nat} (hd : 0 < den) (q : Nat) : roundQuotient (den * q) den = q := by
  simp [roundQuotient, Nat.mul_div_cancel_left q hd, hd]

theorem nearestPoint_onGrid {units : Nat} (h : OnGrid units) : nearestPoint units 1 = units := by
  obtain ⟨q, hq⟩ := h.1
  have hpos : 0 < Nat.pow 2 (units.log2 - 52) := Nat.two_pow_pos _
  simp only [nearestPoint, Nat.div_one, Nat.one_mul]
  conv_lhs => enter [1, 1]; rw [hq]
  rw [roundQuotient_mul hpos, Nat.mul_comm, ← hq]

/-- Less than half a unit is rounded to zero. -/
theorem nearestPoint_eq_zero {num den : Nat} (h : 2 * num < den) : nearestPoint num den = 0 := by
  have hlt : num < den := by omega
  simp [nearestPoint, roundQuotient, Nat.div_eq_of_lt hlt, Nat.mod_eq_of_lt hlt, h]

/-- Rounding does not fall below a power of two. -/
theorem two_pow_le_nearestPoint {num den k : Nat} (h : 2 ^ k ≤ num / den) : 2 ^ k ≤ nearestPoint num den := by
  have hne : num / den ≠ 0 := by have := Nat.two_pow_pos k; omega
  have hk : k ≤ (num / den).log2 := (Nat.le_log2 hne).2 h
  have hlow : 2 ^ (num / den).log2 ≤ num / den := Nat.log2_self_le hne
  generalize hL : (num / den).log2 = L at hk hlow
  have hq : num / (den * 2 ^ (L - 52)) ≤ roundQuotient num (den * 2 ^ (L - 52)) := by
    simp only [roundQuotient]
    split
    · exact Nat.le_refl _
    · split <;> omega
  have hstep : 2 ^ L ≤ num / (den * 2 ^ (L - 52)) * 2 ^ (L - 52) := by
    have hsplit : 2 ^ L = 2 ^ (L - (L - 52)) * 2 ^ (L - 52) := by rw [← Nat.pow_add]; congr 1; omega
    rw [hsplit, ← Nat.div_div_eq_div_mul]
    refine Nat.mul_le_mul_right _ ((Nat.le_div_iff_mul_le (Nat.two_pow_pos _)).2 ?_)
    rw [← hsplit]
    exact hlow
  calc 2 ^ k ≤ 2 ^ L := Nat.pow_le_pow_right (by decide) hk
    _ ≤ num / (den * 2 ^ (L - 52)) * 2 ^ (L - 52) := hstep
    _ ≤ nearestPoint num den := by
      simp only [nearestPoint, hL]
      exact Nat.mul_le_mul_right _ hq

theorem ofQuotient_zero_of_small {negative : Bool} {num den : Nat} (h : 2 * num < den) :
    ofQuotient negative num den = zero negative := by
  have hz : OnGrid 0 := Magnitude.zero.onGrid
  rw [ofQuotient, nearestPoint_eq_zero h, ofUnits, dif_pos hz]
  rfl

theorem ofQuotient_infinite_of_large {negative : Bool} {num den : Nat} (h : 2 ^ 2098 ≤ num / den) :
    ofQuotient negative num den = infinite negative := by
  have hn : ¬ OnGrid (nearestPoint num den) := by
    intro hg
    exact Nat.lt_irrefl _ (Nat.lt_of_le_of_lt (two_pow_le_nearestPoint (k := 2098) h) hg.2)
  rw [ofQuotient, ofUnits, dif_neg hn]

/-! ## Decimals -/

theorem unitsPerOne_mul (k : Nat) : unitsPerOne * 2 ^ k = 2 ^ (1074 + k) :=
  (Nat.pow_add 2 1074 k).symm

/-- The number nearest to a decimal is the one nearest to its value in units. -/
theorem ofDecimal_eq (negative : Bool) (d : Decimal) : ofDecimal negative d =
    ofQuotient negative (d.coefficient * unitsPerOne * 10 ^ d.exponent.toNat) (10 ^ (-d.exponent).toNat) := by
  have hten : ∀ n : Nat, 2 ^ (3 * n) ≤ 10 ^ n := fun n => by
    rw [Nat.pow_mul]
    exact Nat.pow_le_pow_left (by decide) n
  unfold ofDecimal
  split
  · rename_i h₀
    rw [h₀, ofQuotient_zero_of_small]
    simp
  · rename_i h₀
    have hpos : 0 < d.coefficient := Nat.pos_of_ne_zero h₀
    split
    · rename_i h₁
      -- ten to the power 342 units of one are beyond the grid
      have hneg : (-d.exponent).toNat = 0 := by omega
      rw [ofQuotient_infinite_of_large]
      rw [hneg, Nat.pow_zero, Nat.div_one]
      calc 2 ^ 2098 = 1 * unitsPerOne * 2 ^ 1024 := by rw [Nat.one_mul, unitsPerOne_mul]
        _ ≤ d.coefficient * unitsPerOne * 10 ^ d.exponent.toNat :=
          Nat.mul_le_mul (Nat.mul_le_mul_right _ hpos)
            (Nat.le_trans (Nat.pow_le_pow_right (by decide) (by omega)) (hten _))
    · split
      · rename_i h₂
        obtain ⟨k, hk⟩ : ∃ k : Nat, (-d.exponent).toNat = k ∧ d.coefficient.log2 + 1077 < 3 * k :=
          ⟨_, rfl, by omega⟩
        have hzero : d.exponent.toNat = 0 := by omega
        rw [ofQuotient_zero_of_small]
        rw [hzero, Nat.pow_zero, Nat.mul_one, hk.1]
        calc 2 * (d.coefficient * unitsPerOne) = d.coefficient * (unitsPerOne * 2 ^ 1) := by ring
          _ < 2 ^ (d.coefficient.log2 + 1) * (unitsPerOne * 2 ^ 1) :=
            Nat.mul_lt_mul_of_pos_right Nat.lt_log2_self (by rw [unitsPerOne_mul]; exact Nat.two_pow_pos _)
          _ = 2 ^ (d.coefficient.log2 + 1 + (1074 + 1)) := by
            rw [unitsPerOne_mul]
            exact (Nat.pow_add 2 _ _).symm
          _ ≤ 2 ^ (3 * k) := Nat.pow_le_pow_right (by decide) (by omega)
          _ ≤ 10 ^ k := hten k
      · rfl

/-- Decimals of the same value are the same number. -/
theorem ofDecimal_congr {negative : Bool} {d₁ d₂ : Decimal}
    (h : d₁.coefficient * 10 ^ d₁.exponent.toNat * 10 ^ (-d₂.exponent).toNat =
      d₂.coefficient * 10 ^ d₂.exponent.toNat * 10 ^ (-d₁.exponent).toNat) :
    ofDecimal negative d₁ = ofDecimal negative d₂ := by
  rw [ofDecimal_eq, ofDecimal_eq]
  refine ofQuotient_congr (Nat.pow_pos (by decide)) (Nat.pow_pos (by decide)) ?_
  calc d₁.coefficient * unitsPerOne * 10 ^ d₁.exponent.toNat * 10 ^ (-d₂.exponent).toNat
      = unitsPerOne * (d₁.coefficient * 10 ^ d₁.exponent.toNat * 10 ^ (-d₂.exponent).toNat) := by ring
    _ = d₂.coefficient * unitsPerOne * 10 ^ d₂.exponent.toNat * 10 ^ (-d₁.exponent).toNat := by rw [h]; ring

end Jolt.Number
