import Jolt.Proofs.Number.Rounding
import Mathlib.Algebra.Order.Field.Rat
import Mathlib.Algebra.Order.Group.Unbundled.Abs
import Mathlib.Data.Nat.Cast.Order.Field
import Mathlib.Tactic.Linarith
import Mathlib.Tactic.FieldSimp
import Mathlib.Tactic.Positivity

/-!
# Correct rounding

What it means that a number is a rational rounded to nearest (`Number.Rounds`): on a grid that has 53 significant bits and no
end no point is nearer, of two points equally near the even one is taken, and beyond the end of the numbers lies an infinity.

Exactly one point is nearest, the one that division finds (`Number.nearest_iff`). So quotients, naturals and decimals are
rounded correctly, and rounded correctly in one way (`Number.rounds_iff`, `Number.rounds_ofNat_iff`,
`Number.rounds_ofDecimal_iff`).
-/

namespace Jolt

namespace Number

/-- A natural number of at most 53 significant bits: the grid of binary64, without its end. -/
def OnOpenGrid (units : Nat) : Prop :=
  2 ^ (units.log2 - 52) ∣ units

/-- No point of the grid is nearer to `v`. Where another one is as near, the last significant bit is clear. -/
structure Nearest (v : ℚ) (units : Nat) : Prop where
  onGrid : OnOpenGrid units
  least : ∀ n, OnOpenGrid n → |(units : ℚ) - v| ≤ |(n : ℚ) - v|
  even : ∀ n, OnOpenGrid n → n ≠ units → |(n : ℚ) - v| = |(units : ℚ) - v| → 2 ^ (units.log2 - 52 + 1) ∣ units

/-- A quotient is rounded by at most a half, and by a half to an even number. -/
theorem abs_roundQuotient_sub (num : Nat) {den : Nat} (hden : 0 < den) :
    |(roundQuotient num den : ℚ) - num / den| ≤ 1 / 2 ∧
      (|(roundQuotient num den : ℚ) - num / den| = 1 / 2 → 2 ∣ roundQuotient num den) := by
  have hd : (0 : ℚ) < den := by exact_mod_cast hden
  obtain ⟨q, hq⟩ : ∃ q, num / den = q := ⟨_, rfl⟩
  obtain ⟨r, hr⟩ : ∃ r, num % den = r := ⟨_, rfl⟩
  have hv : (num : ℚ) / den = q + r / den := by
    have h : (num : ℚ) = den * q + r := by
      rw [← hq, ← hr]
      exact_mod_cast (Nat.div_add_mod num den).symm
    rw [h]
    field_simp
  simp only [roundQuotient, hq, hr, hv]
  have hfrac : (0 : ℚ) ≤ r / den := by positivity
  by_cases hlow : 2 * r < den
  · have hhalf : (r : ℚ) / den < 1 / 2 := by
      rw [div_lt_div_iff₀ hd two_pos]
      exact_mod_cast (by omega : r * 2 < 1 * den)
    rw [if_pos hlow, sub_add_cancel_left, abs_neg, abs_of_nonneg hfrac]
    exact ⟨hhalf.le, fun h => absurd h hhalf.ne⟩
  by_cases hhigh : den < 2 * r
  · have hhalf : (1 : ℚ) / 2 < r / den := by
      rw [div_lt_div_iff₀ two_pos hd]
      exact_mod_cast (by omega : 1 * den < r * 2)
    have hone : (r : ℚ) / den ≤ 1 := by
      rw [div_le_one hd]
      exact_mod_cast hr ▸ (Nat.mod_lt num hden).le
    have hsub : ((q + 1 : Nat) : ℚ) - (q + r / den) = 1 - r / den := by push_cast; ring
    rw [if_neg hlow, if_pos hhigh, hsub, abs_of_nonneg (by linarith)]
    exact ⟨by linarith, fun h => by linarith⟩
  · have hhalf : (r : ℚ) / den = 1 / 2 := by
      rw [div_eq_div_iff hd.ne' two_ne_zero]
      exact_mod_cast (by omega : r * 2 = 1 * den)
    have hsub : ((q + q % 2 : Nat) : ℚ) - (q + r / den) = (q % 2 : Nat) - 1 / 2 := by rw [hhalf]; push_cast; ring
    rw [if_neg hlow, if_neg hhigh, hsub]
    refine ⟨?_, fun _ => by omega⟩
    rcases Nat.mod_two_eq_zero_or_one q with h | h <;> rw [h] <;> norm_num

/-! ## The grid around a value -/

theorem OnOpenGrid.dvd_or_lt {n : Nat} (h : OnOpenGrid n) (s : Nat) : 2 ^ s ∣ n ∨ n < 2 ^ (s + 52) := by
  rcases Nat.lt_or_ge n (2 ^ (s + 52)) with hlt | hge
  · exact .inr hlt
  · have hne : n ≠ 0 := by have := Nat.two_pow_pos (s + 52); omega
    have hlog : s + 52 ≤ n.log2 := (Nat.le_log2 hne).2 hge
    exact .inl ((Nat.pow_dvd_pow 2 (by omega)).trans h)

/-- The spacing at a multiple of a power of two is at most that power, or the multiple is the next power of two itself. -/
theorem log2_mul_two_pow {r : Nat} (s : Nat) (hr : r ≤ 2 ^ 53) : (r * 2 ^ s).log2 - 52 ≤ s ∨ r = 2 ^ 53 := by
  rcases Nat.lt_or_eq_of_le hr with hlt | heq
  · left
    rcases Nat.eq_zero_or_pos r with rfl | hpos
    · simp
    · have hne : r * 2 ^ s ≠ 0 := Nat.mul_ne_zero hpos.ne' (Nat.two_pow_pos s).ne'
      have hlog : (r * 2 ^ s).log2 < 53 + s := by
        rw [Nat.log2_lt hne, Nat.pow_add]
        exact Nat.mul_lt_mul_of_pos_right hlt (Nat.two_pow_pos s)
      omega
  · exact .inr heq

theorem onOpenGrid_mul {r : Nat} (s : Nat) (hr : r ≤ 2 ^ 53) : OnOpenGrid (r * 2 ^ s) := by
  rcases log2_mul_two_pow s hr with hle | rfl
  · exact (Nat.pow_dvd_pow 2 hle).trans (Nat.dvd_mul_left _ _)
  · rw [OnOpenGrid, ← Nat.pow_add, Nat.log2_two_pow]
    exact Nat.pow_dvd_pow 2 (by omega)

theorem even_mul {r : Nat} (s : Nat) (hr : r ≤ 2 ^ 53) (h : 2 ∣ r) : 2 ^ ((r * 2 ^ s).log2 - 52 + 1) ∣ r * 2 ^ s := by
  rcases log2_mul_two_pow s hr with hle | rfl
  · refine (Nat.pow_dvd_pow 2 (Nat.succ_le_succ hle)).trans ?_
    rw [Nat.pow_succ']
    exact Nat.mul_dvd_mul_right h _
  · rw [← Nat.pow_add, Nat.log2_two_pow]
    exact Nat.pow_dvd_pow 2 (by omega)

/-- Where one multiple of a step is within half a step of a value, no other one is nearer than that. -/
theorem half_le_abs_sub {v : ℚ} {step k r : Nat} (hne : k ≠ r) (h : |((r * step : Nat) : ℚ) - v| ≤ (step : ℚ) / 2) :
    (step : ℚ) / 2 ≤ |((k * step : Nat) : ℚ) - v| := by
  have hone : (1 : ℚ) ≤ |(k : ℚ) - r| := by
    have : (1 : ℤ) ≤ |(k : ℤ) - r| := Int.one_le_abs (by omega)
    exact_mod_cast this
  have hstep : (step : ℚ) ≤ |((k * step : Nat) : ℚ) - (r * step : Nat)| := by
    rw [Nat.cast_mul, Nat.cast_mul, ← sub_mul, abs_mul, Nat.abs_cast]
    exact le_mul_of_one_le_left (Nat.cast_nonneg _) hone
  have htriangle := abs_sub_le ((k * step : Nat) : ℚ) v ((r * step : Nat) : ℚ)
  rw [abs_sub_comm v] at htriangle
  linarith

/-- Two multiples of a step within half a step of one value are neighbours. -/
theorem adjacent_of_half {v : ℚ} {step k r : Nat} (hstep : 0 < step) (hne : k ≠ r)
    (hk : |((k * step : Nat) : ℚ) - v| ≤ (step : ℚ) / 2) (hr : |((r * step : Nat) : ℚ) - v| ≤ (step : ℚ) / 2) :
    k = r + 1 ∨ r = k + 1 := by
  have hpos : (0 : ℚ) < step := by exact_mod_cast hstep
  have htriangle := abs_sub_le ((k * step : Nat) : ℚ) v ((r * step : Nat) : ℚ)
  rw [abs_sub_comm v, Nat.cast_mul, Nat.cast_mul, ← sub_mul, abs_mul, Nat.abs_cast] at htriangle
  rw [Nat.cast_mul] at hk hr
  have hone : |(k : ℚ) - r| ≤ 1 := le_of_mul_le_mul_right (by linarith) hpos
  have hint : |(k : ℤ) - r| ≤ 1 := by exact_mod_cast hone
  have := abs_le.1 hint
  omega

/-- The multiple `r` of `2 ^ s` is within half a step of `v`, by half a step only if it is even, and the grid around `v` has
that step. -/
structure Settles (v : ℚ) (r s : Nat) : Prop where
  low : s = 0 ∨ ((2 ^ (s + 52) : Nat) : ℚ) ≤ v
  high : r ≤ 2 ^ 53
  near : |((r * 2 ^ s : Nat) : ℚ) - v| ≤ ((2 ^ s : Nat) : ℚ) / 2
  even : |((r * 2 ^ s : Nat) : ℚ) - v| = ((2 ^ s : Nat) : ℚ) / 2 → 2 ∣ r

namespace Settles

variable {v : ℚ} {r s : Nat}

/-- Any other point of the grid is farther away, or a multiple of the step and at least half a step away. -/
theorem farther (h : Settles v r s) {n : Nat} (hn : OnOpenGrid n) (hne : n ≠ r * 2 ^ s) :
    |((r * 2 ^ s : Nat) : ℚ) - v| < |(n : ℚ) - v| ∨
      2 ^ s ∣ n ∧ ((2 ^ s : Nat) : ℚ) / 2 ≤ |(n : ℚ) - v| := by
  by_cases hdvd : 2 ^ s ∣ n
  · obtain ⟨k, rfl⟩ := dvd_iff_exists_eq_mul_left.1 hdvd
    have hk : k ≠ r := fun hk => hne (by rw [hk])
    exact .inr ⟨hdvd, half_le_abs_sub hk h.near⟩
  · left
    have hlt := (hn.dvd_or_lt s).resolve_left hdvd
    have hlow : ((2 ^ (s + 52) : Nat) : ℚ) ≤ v := h.low.resolve_left fun hs => hdvd (by simp [hs])
    -- the power of two below the value is on the grid, so it is no nearer, and the point is still below it
    have hpow : |((r * 2 ^ s : Nat) : ℚ) - v| ≤ v - (2 ^ (s + 52) : Nat) := by
      rw [← abs_of_nonneg (sub_nonneg.2 hlow), abs_sub_comm v, Nat.add_comm s, Nat.pow_add]
      rcases eq_or_ne (2 ^ 52) r with hr | hr
      · rw [hr]
      · exact h.near.trans (half_le_abs_sub hr h.near)
    have hcast : (n : ℚ) < (2 ^ (s + 52) : Nat) := by exact_mod_cast hlt
    rw [abs_sub_comm (n : ℚ), abs_of_nonneg (by linarith : (0 : ℚ) ≤ v - n)]
    linarith

theorem nearest (h : Settles v r s) : Nearest v (r * 2 ^ s) where
  onGrid := onOpenGrid_mul s h.high
  least n hn := by
    rcases eq_or_ne n (r * 2 ^ s) with rfl | hne
    · exact le_rfl
    · rcases h.farther hn hne with hlt | ⟨-, hhalf⟩
      · exact hlt.le
      · exact h.near.trans hhalf
  even n hn hne htie := by
    rcases h.farther hn hne with hlt | ⟨-, hhalf⟩
    · exact absurd htie.symm hlt.ne
    · exact even_mul s h.high (h.even (h.near.antisymm (htie ▸ hhalf)))

/-- A multiple of the step within half a step of the value is not below the power of two that the value is not below. -/
theorem le_log2 (h : Settles v r s) {k : Nat} (hk : |((k * 2 ^ s : Nat) : ℚ) - v| ≤ ((2 ^ s : Nat) : ℚ) / 2) :
    s ≤ (k * 2 ^ s).log2 - 52 := by
  rcases h.low with rfl | hlow
  · exact Nat.zero_le _
  · have hpos : (0 : ℚ) < (2 ^ s : Nat) := by exact_mod_cast Nat.two_pow_pos s
    rw [Nat.add_comm s, Nat.pow_add, Nat.cast_mul] at hlow
    rw [Nat.cast_mul] at hk
    have hle : (2 ^ 52 : Nat) * ((2 ^ s : Nat) : ℚ) < (k + 1 : Nat) * ((2 ^ s : Nat) : ℚ) := by
      have := (abs_le.1 hk).1
      rw [Nat.cast_succ, add_mul]
      linarith
    have hk52 : 2 ^ 52 ≤ k := Nat.lt_succ_iff.1 (by exact_mod_cast lt_of_mul_lt_mul_right hle hpos.le)
    have hlog : s + 52 ≤ (k * 2 ^ s).log2 := by
      rw [Nat.le_log2 (Nat.mul_ne_zero (by omega) (Nat.two_pow_pos s).ne'), Nat.add_comm, Nat.pow_add]
      exact Nat.mul_le_mul_right _ hk52
    omega

/-- Of two points equally near, neighbours on the grid, only one is even. -/
theorem eq_of_nearest (h : Settles v r s) {units : Nat} (hu : Nearest v units) : units = r * 2 ^ s := by
  by_contra hne
  have htie : |(units : ℚ) - v| = |((r * 2 ^ s : Nat) : ℚ) - v| :=
    (hu.least _ h.nearest.onGrid).antisymm (h.nearest.least _ hu.onGrid)
  obtain ⟨hdvd, hhalf⟩ := (h.farther hu.onGrid hne).resolve_left htie.not_gt
  have hmid : |((r * 2 ^ s : Nat) : ℚ) - v| = ((2 ^ s : Nat) : ℚ) / 2 := h.near.antisymm (htie ▸ hhalf)
  have heven : 2 ∣ r := h.even hmid
  obtain ⟨k, rfl⟩ := dvd_iff_exists_eq_mul_left.1 hdvd
  -- the two multiples are neighbours
  have hnext : k = r + 1 ∨ r = k + 1 :=
    adjacent_of_half (Nat.two_pow_pos s) (fun hk => hne (by rw [hk])) (htie.trans hmid).le hmid.le
  -- and the other one is odd
  have hspacing : s ≤ (k * 2 ^ s).log2 - 52 := h.le_log2 (htie.trans hmid).le
  have htwo : 2 ^ (s + 1) ∣ k * 2 ^ s :=
    (Nat.pow_dvd_pow 2 (Nat.succ_le_succ hspacing)).trans (hu.even _ h.nearest.onGrid (Ne.symm hne) htie.symm)
  rw [Nat.pow_succ'] at htwo
  have hk : 2 ∣ k := Nat.dvd_of_mul_dvd_mul_right (Nat.two_pow_pos s) htwo
  omega

end Settles

/-! ## Quotients -/

theorem settles_nearestPoint (num : Nat) {den : Nat} (hden : 0 < den) :
    Settles (num / den) (roundQuotient num (den * 2 ^ ((num / den).log2 - 52))) ((num / den).log2 - 52) := by
  obtain ⟨L, hL⟩ : ∃ L, (num / den).log2 = L := ⟨_, rfl⟩
  obtain ⟨s, hs⟩ : ∃ s, L - 52 = s := ⟨_, rfl⟩
  rw [hL, hs]
  have hpos : (0 : ℚ) < (2 ^ s : Nat) := by exact_mod_cast Nat.two_pow_pos s
  have hdiv : (num : ℚ) / (den * 2 ^ s : Nat) * (2 ^ s : Nat) = num / den := by
    rw [Nat.cast_mul, ← div_div, div_mul_cancel₀ _ hpos.ne']
  have hscale : ∀ r : Nat, |((r * 2 ^ s : Nat) : ℚ) - num / den| =
      |(r : ℚ) - num / (den * 2 ^ s : Nat)| * (2 ^ s : Nat) := by
    intro r
    rw [← hdiv, Nat.cast_mul, ← sub_mul, abs_mul, Nat.abs_cast]
  have hhalf : ((2 ^ s : Nat) : ℚ) / 2 = 1 / 2 * (2 ^ s : Nat) := (one_div_mul_eq_div _ _).symm
  obtain ⟨hnear, heven⟩ := abs_roundQuotient_sub num (Nat.mul_pos hden (Nat.two_pow_pos s))
  refine ⟨?_, ?_, ?_, fun htie => heven ?_⟩
  · by_cases hzero : s = 0
    · exact .inl hzero
    · right
      have hne : num / den ≠ 0 := by
        intro h0
        simp [h0] at hL
        omega
      have hself : 2 ^ (s + 52) ≤ num / den := by
        rw [(by omega : s + 52 = (num / den).log2)]
        exact Nat.log2_self_le hne
      calc ((2 ^ (s + 52) : Nat) : ℚ) ≤ (num / den : Nat) := Nat.cast_le.2 hself
        _ ≤ num / den := Nat.cast_div_le
  · have hlt : num / (den * 2 ^ s) < 2 ^ 53 := by
      rw [← Nat.div_div_eq_div_mul, Nat.div_lt_iff_lt_mul (Nat.two_pow_pos s), ← Nat.pow_add]
      exact Nat.lt_of_lt_of_le Nat.lt_log2_self (Nat.pow_le_pow_right (by decide) (by omega))
    simp only [roundQuotient]
    split
    · omega
    · split <;> omega
  · rw [hscale, hhalf]
    exact mul_le_mul_of_nonneg_right hnear hpos.le
  · rw [hscale, hhalf] at htie
    exact mul_right_cancel₀ hpos.ne' htie

/-- The point that a quotient is rounded to is the nearest one, and the even one of two equally near. -/
theorem nearest_iff {num den units : Nat} (hden : 0 < den) :
    Nearest (num / den) units ↔ units = nearestPoint num den := by
  have h := settles_nearestPoint num hden
  constructor
  · exact h.eq_of_nearest
  · rintro rfl
    exact h.nearest

/-! ## Correct rounding -/

/-- The number `x` is the value `v` with a sign, rounded to the nearest number, a tie to the even one. Where the grid would
have to go on beyond its end, that is an infinity. -/
inductive Rounds (negative : Bool) (v : ℚ) : Number → Prop
  | finite {m : Magnitude} : Nearest (v * unitsPerOne) m.units → Rounds negative v (.finite negative m)
  | infinite {units : Nat} : Nearest (v * unitsPerOne) units → 2 ^ 2098 ≤ units → Rounds negative v (.infinite negative)

theorem rounds_iff {negative : Bool} {v : ℚ} {num den : Nat} {x : Number} (hden : 0 < den)
    (hv : v * unitsPerOne = num / den) : Rounds negative v x ↔ x = ofQuotient negative num den := by
  constructor
  · intro h
    cases h with
    | @finite m hm =>
      rw [hv, nearest_iff hden] at hm
      rw [ofQuotient, ← hm, ofUnits, dif_pos m.onGrid]
    | @infinite units hu hbig =>
      rw [hv, nearest_iff hden] at hu
      rw [ofQuotient, ← hu, ofUnits, dif_neg fun hgrid => Nat.not_lt.2 hbig hgrid.2]
  · rintro rfl
    have hn : Nearest (v * unitsPerOne) (nearestPoint num den) := by rw [hv, nearest_iff hden]
    rw [ofQuotient, ofUnits]
    split
    · exact .finite hn
    · rename_i hgrid
      exact .infinite hn (Nat.not_lt.1 fun hlt => hgrid ⟨hn.onGrid, hlt⟩)

theorem rounds_ofNat_iff {n : Nat} {x : Number} : Rounds false n x ↔ x = ofNat n :=
  rounds_iff Nat.one_pos (by rw [Nat.cast_mul, Nat.cast_one, div_one])

end Number

/-- The rational that a decimal is. -/
def Decimal.value (d : Decimal) : ℚ :=
  d.coefficient * 10 ^ d.exponent

theorem Number.rounds_ofDecimal_iff {negative : Bool} {d : Decimal} {x : Number} :
    Rounds negative d.value x ↔ x = ofDecimal negative d := by
  rw [ofDecimal_eq]
  refine rounds_iff (Nat.pow_pos (by decide)) ?_
  obtain ⟨c, e⟩ := d
  have hten : ∀ k : Nat, ((10 ^ k : Nat) : ℚ) = (10 : ℚ) ^ (k : ℤ) := by
    intro k
    rw [zpow_natCast]
    exact Nat.cast_pow 10 k
  have hsplit : (10 : ℚ) ^ e = (10 ^ e.toNat : Nat) / (10 ^ (-e).toNat : Nat) := by
    rw [hten, hten, ← zpow_sub₀ (by norm_num)]
    congr 1
    omega
  simp only [Decimal.value]
  rw [hsplit, Nat.cast_mul, Nat.cast_mul]
  ring

end Jolt
