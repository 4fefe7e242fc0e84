import Jolt.Proofs.Number.Nearest
import Jolt.Proofs.Number.Spelling

/-!
# The number that a string denotes

What a text stands for (`Number.Denotes`): nothing for zero, digits of a base behind its mark, a word for an infinity, a
decimal numeral. Conversion accepts these texts and no others, and gives the correctly rounded value (`Number.ofText_denotes`).

Reading counts the first five digits of an exponent. With at most 9676 bytes in all, a decimal with a longer exponent is
infinite or zero either way (`Number.countAlike_leadingFive`); with more, it need not be (`Number.ofText_overlong`).
-/

namespace Jolt

instance : DecidablePred IsNumeric := fun _ => inferInstanceAs (Decidable (_ ∨ _))

theorem IsNumeric.lower_ne {b : UInt8} (h : IsNumeric b) {c : UInt8} (hc : c ∈ [98, 110, 111, 120]) : Text.lower b ≠ c := by
  rcases h with h | h
  · rw [Text.lower_of_isDigit h]
    rintro rfl
    simp only [List.mem_cons, List.not_mem_nil, or_false] at hc
    rcases hc with rfl | rfl | rfl | rfl <;> exact absurd h (by decide)
  · revert hc
    simp only [List.mem_cons, List.not_mem_nil, or_false] at h
    rcases h with rfl | rfl | rfl | rfl | rfl <;> rintro hc rfl <;> revert hc <;> decide

theorem IsNumeric.isVisible {b : UInt8} (h : IsNumeric b) : Text.IsVisible b := by
  rcases h with h | h
  · rw [Text.isDigit_iff] at h
    exact ⟨by omega, by omega⟩
  · simp only [List.mem_cons, List.not_mem_nil, or_false] at h
    rcases h with rfl | rfl | rfl | rfl | rfl <;> exact ⟨by decide, by decide⟩

theorem IsDigit.isVisible {b : UInt8} {d : Nat} (h : IsDigit b d) : Text.IsVisible b := by
  unfold IsDigit at h
  exact ⟨by omega, by omega⟩

theorem Decimal.Spelled.ne_nil {count : Nat → Nat} {t : Text} {negative : Bool} {d : Decimal}
    (h : Spelled count t negative d) : t ≠ [] := by
  obtain ⟨-, hm, -⟩ := h
  obtain ⟨b, r, rfl, -⟩ := hm.head
  simp

namespace Number

/-! ## Decimal numerals are literals -/

theorem Literal.isWord_eq_false {t word : Text} (ht : ∀ b ∈ t, IsNumeric b) (hword : 110 ∈ word) :
    isWord t word = false := by
  rw [isWord, beq_eq_false_iff_ne]
  rintro rfl
  obtain ⟨b, hb, hn⟩ := List.mem_map.1 hword
  exact (ht b hb).lower_ne (by simp) hn

theorem Literal.filter_underscore {t : Text} (h : Byte.underscore ∉ t) : t.filter (· ≠ Byte.underscore) = t :=
  List.filter_eq_self.2 fun _ hb => decide_eq_true (ne_of_mem_of_not_mem hb h)

theorem Literal.read?_of_no_word {t u : Text} {negative : Bool} (hs : t.signed = (negative, u))
    (hinf : isWord u (utf8 "inf") = false) (hinfinity : isWord u (utf8 "infinity") = false)
    (hnan : isWord t (utf8 "nan") = false) : read? t = readNumeral? negative u := by
  simp [read?, hs, hinf, hinfinity, hnan]

/-- Without underscores and without the hexadecimal mark, a numeral is a decimal one. -/
theorem Literal.readNumeral?_of_plain {t : Text} (hu : Byte.underscore ∉ t) (hx : afterHexMark? t = none)
    (negative : Bool) : readNumeral? negative t = (Decimal.readUnsigned? t).map (ofDecimal negative) := by
  simp only [readNumeral?, hx, filter_underscore hu, underscoresInPlace_of_not_mem hu, if_true]

/-- A decimal numeral is a literal. None of the other spellings of literals gets in its way. -/
theorem Literal.read?_of_spelled {t : Text} {negative : Bool} {d : Decimal}
    (h : Decimal.Spelled leadingFive t negative d) : read? t = some (ofDecimal negative d) := by
  have hbyte := h.byte
  obtain ⟨hs, hm, he⟩ := h
  rename_i s m e n places x
  have hunsigned : ∀ b ∈ m ++ e, IsNumeric b := fun b hb => hbyte b (List.mem_append_right _ hb)
  have hu : Byte.underscore ∉ m ++ e := fun hb => absurd (hunsigned _ hb) (by decide)
  have hx : afterHexMark? (m ++ e) = none := afterHexMark?_eq_none fun b hb => (hunsigned b hb).lower_ne (by simp)
  rw [read?_of_no_word (hm.signed_append hs) (isWord_eq_false hunsigned (by decide))
    (isWord_eq_false hunsigned (by decide)) (isWord_eq_false hbyte (by decide)), readNumeral?_of_plain hu hx,
    Decimal.readUnsigned?_eq_some_iff.2 ⟨m, e, n, places, x, rfl, hm, he, rfl⟩]
  rfl

/-! ## What a text denotes -/

/-- The byte marks a base behind a leading zero. -/
def IsMark (b : UInt8) (base : Nat) : Prop :=
  base = 16 ∧ (b = 120 ∨ b = 88) ∨ base = 8 ∧ (b = 111 ∨ b = 79) ∨ base = 2 ∧ (b = 98 ∨ b = 66)

/-- The text stands for the number: nothing for zero, digits of a base behind its mark, a word for an infinity, or a decimal
numeral. The digits of its exponent count as `count` says. -/
inductive Denotes (count : Nat → Nat) : Text → Number → Prop
  | nothing : Denotes count [] (zero false)
  | marked {mark : UInt8} {base n : Nat} {digits : Text} {x : Number} : IsMark mark base → digits ≠ [] →
      Digits base digits n → n < 2 ^ 64 → Rounds false n x → Denotes count (Byte.zero :: mark :: digits) x
  | infinity {s : Text} {negative : Bool} : Sign s negative → Denotes count (s ++ utf8 "Infinity") (infinite negative)
  | decimal {t : Text} {negative : Bool} {d : Decimal} {x : Number} : Decimal.Spelled count t negative d →
      Rounds negative d.value x → Denotes count t x

theorem Rounds.ne_nan {negative : Bool} {v : ℚ} {x : Number} (h : Rounds negative v x) : x ≠ nan := by
  cases h <;> simp

theorem baseOfMark?_eq_some_iff {b : UInt8} {base : Nat} : baseOfMark? b = some base ↔ IsMark b base := by
  have hl := Text.toNat_lower b
  simp only [baseOfMark?, IsMark, ← UInt8.toNat_inj, UInt8.reduceToNat]
  grind

theorem ofBaseDigits_eq_iff {base : Nat} {digits : Text} {x : Number} : ofBaseDigits base digits = x ∧ x ≠ nan ↔
    ∃ n, Digits base digits n ∧ n < 2 ^ 64 ∧ Rounds false n x := by
  simp only [ofBaseDigits, digits_iff, rounds_ofNat_iff, Bool.and_eq_true, List.all_eq_true, decide_eq_true_eq]
  constructor
  · rintro ⟨h, hx⟩
    split at h
    · rename_i hd
      exact ⟨_, ⟨hd.1, rfl⟩, hd.2, h.symm⟩
    · exact absurd h.symm hx
  · rintro ⟨_, ⟨hd, rfl⟩, hlt, rfl⟩
    rw [if_pos ⟨hd, hlt⟩]
    exact ⟨rfl, (rounds_ofNat_iff.2 rfl).ne_nan⟩

/-- The words for infinity are no decimal numerals. -/
theorem ne_infinity {t : Text} (ht : ∀ b ∈ t, IsNumeric b) (s : Text) : t ≠ s ++ utf8 "Infinity" := by
  rintro rfl
  exact absurd (ht 73 (List.mem_append_right _ (by decide))) (by decide)

theorem ofDecimalText_infinity {s : Text} {negative : Bool} (h : Sign s negative) :
    ofDecimalText (s ++ utf8 "Infinity") = infinite negative := by
  unfold ofDecimalText
  cases h with
  | none => exact if_pos (.inl rfl)
  | plus => exact if_pos (.inr rfl)
  | minus =>
    rw [if_neg (by decide)]
    exact if_pos rfl

theorem ofDecimalText_of_ne {t : Text} (h : ∀ s negative, Sign s negative → t ≠ s ++ utf8 "Infinity") :
    ofDecimalText t = if isDecimal t then (Literal.read? t).getD nan else nan := by
  have h₁ : t ≠ utf8 "Infinity" := h _ _ .none
  have h₂ : t ≠ utf8 "+Infinity" := h _ _ .plus
  have h₃ : t ≠ utf8 "-Infinity" := h _ _ .minus
  rw [ofDecimalText, if_neg (not_or.2 ⟨h₁, h₂⟩), if_neg h₃]

theorem ofDecimalText_spelled {t : Text} {negative : Bool} {d : Decimal} (h : Decimal.Spelled leadingFive t negative d) :
    ofDecimalText t = ofDecimal negative d := by
  rw [ofDecimalText_of_ne fun s _ _ => ne_infinity h.byte s, Decimal.isDecimal_eq, Decimal.read?_eq_some_iff.2 h,
    Literal.read?_of_spelled h]
  rfl

theorem exists_spelled {t : Text} (h : isDecimal t = true) : ∃ negative d, Decimal.Spelled leadingFive t negative d := by
  rw [Decimal.isDecimal_eq] at h
  obtain ⟨⟨negative, d⟩, hread⟩ := Option.isSome_iff_exists.1 h
  exact ⟨negative, d, Decimal.read?_eq_some_iff.1 hread⟩

theorem denotes_ofDecimalText {t : Text} (h : ofDecimalText t ≠ nan) : Denotes leadingFive t (ofDecimalText t) := by
  by_cases hword : ∃ s negative, Sign s negative ∧ t = s ++ utf8 "Infinity"
  · obtain ⟨s, negative, hs, rfl⟩ := hword
    rw [ofDecimalText_infinity hs]
    exact .infinity hs
  · have hne : ∀ s negative, Sign s negative → t ≠ s ++ utf8 "Infinity" := fun s negative hs ht =>
      hword ⟨s, negative, hs, ht⟩
    have hdecimal : isDecimal t = true := by
      by_contra hnot
      exact h (by rw [ofDecimalText_of_ne hne, if_neg hnot])
    obtain ⟨negative, d, hspelled⟩ := exists_spelled hdecimal
    exact .decimal hspelled (rounds_ofDecimal_iff.2 (ofDecimalText_spelled hspelled))

theorem ofText_marked {s : Text} {mark c : UInt8} {base : Nat} {r : Text} (h : s.trim = Byte.zero :: mark :: c :: r)
    (hmark : IsMark mark base) : ofText s = ofBaseDigits base (c :: r) := by
  unfold ofText
  split
  · rename_i heq
    cases h.symm.trans heq
  · rename_i mark' c' r' heq
    obtain ⟨rfl, rfl, rfl⟩ : mark = mark' ∧ c = c' ∧ r = r' := by simpa using h.symm.trans heq
    rw [baseOfMark?_eq_some_iff.2 hmark]
  · rename_i hother
    exact absurd h (hother mark c r)

theorem ofText_unmarked {s : Text} (hne : s.trim ≠ [])
    (h : ∀ mark c r base, s.trim = Byte.zero :: mark :: c :: r → ¬ IsMark mark base) : ofText s = ofDecimalText s.trim := by
  unfold ofText
  split
  · contradiction
  · rename_i mark c r heq
    split
    · rename_i base hbase
      exact absurd (baseOfMark?_eq_some_iff.1 hbase) (h mark c r base heq)
    · rw [heq]
      rfl
  · rfl

/-- A byte of a numeral marks no base. -/
theorem IsMark.not_isNumeric {b : UInt8} {base : Nat} (h : IsMark b base) : ¬ IsNumeric b := by
  intro hb
  rcases h with ⟨-, rfl | rfl⟩ | ⟨-, rfl | rfl⟩ | ⟨-, rfl | rfl⟩ <;> revert hb <;> decide

/-- A string is converted to the number that it denotes. -/
theorem ofText_eq_iff_denotes {s : Text} {x : Number} : ofText s = x ∧ x ≠ nan ↔ Denotes leadingFive s.trim x := by
  constructor
  · rintro ⟨rfl, hx⟩
    by_cases hnil : s.trim = []
    · have hzero : ofText s = zero false := by simp only [ofText, hnil]
      rw [hnil, hzero]
      exact .nothing
    by_cases hmarked : ∃ mark c r base, s.trim = Byte.zero :: mark :: c :: r ∧ IsMark mark base
    · obtain ⟨mark, c, r, base, htrim, hmark⟩ := hmarked
      obtain ⟨n, hd, hlt, hn⟩ := ofBaseDigits_eq_iff.1 ⟨(ofText_marked htrim hmark).symm, hx⟩
      rw [htrim]
      exact .marked hmark (by simp) hd hlt hn
    · have heq := ofText_unmarked hnil fun mark c r base htrim hmark => hmarked ⟨mark, c, r, base, htrim, hmark⟩
      rw [heq] at hx ⊢
      exact denotes_ofDecimalText hx
  · intro h
    generalize htrim : s.trim = u at h
    cases h with
    | nothing =>
      simp only [ofText, htrim]
      simp [zero]
    | @marked mark base n digits _ hmark hne hd hlt hn =>
      obtain ⟨c, r, rfl⟩ := List.exists_cons_of_ne_nil hne
      rw [ofText_marked htrim hmark]
      exact ofBaseDigits_eq_iff.2 ⟨n, hd, hlt, hn⟩
    | @infinity s' negative hs =>
      have hfirst : ∀ t, s' ++ utf8 "Infinity" ≠ Byte.zero :: t := by
        intro t ht
        cases hs <;> cases ht
      have heq : ofText s = ofDecimalText s.trim := by
        refine ofText_unmarked ?_ fun mark c r base h => absurd (htrim.symm.trans h) (hfirst _)
        rw [htrim]
        exact List.append_ne_nil_of_right_ne_nil _ (by decide)
      rw [heq, htrim, ofDecimalText_infinity hs]
      exact ⟨rfl, by simp⟩
    | decimal hspelled hx =>
      have heq : ofText s = ofDecimalText s.trim := by
        refine ofText_unmarked (htrim ▸ hspelled.ne_nil) fun mark c r base h hmark => ?_
        exact hmark.not_isNumeric (hspelled.byte mark (by rw [← htrim, h]; simp))
      rw [heq, htrim, ofDecimalText_spelled hspelled]
      exact ⟨(rounds_ofDecimal_iff.1 hx).symm, hx.ne_nan⟩

theorem IsMark.isVisible {b : UInt8} {base : Nat} (h : IsMark b base) : Text.IsVisible b := by
  rcases h with ⟨-, rfl | rfl⟩ | ⟨-, rfl | rfl⟩ | ⟨-, rfl | rfl⟩ <;> exact ⟨by decide, by decide⟩

theorem Denotes.visible {count : Nat → Nat} {t : Text} {x : Number} (h : Denotes count t x) : ∀ b ∈ t, Text.IsVisible b := by
  cases h with
  | nothing => exact fun _ hb => absurd hb List.not_mem_nil
  | @marked mark base n digits _ hmark _ hd _ _ =>
    rw [List.forall_mem_cons, List.forall_mem_cons]
    refine ⟨⟨by decide, by decide⟩, hmark.isVisible, fun b hb => ?_⟩
    obtain ⟨d, hdigit, -⟩ := isDigitOf_iff.1 ((digits_iff.1 hd).1 b hb)
    exact hdigit.isVisible
  | infinity hs =>
    have hword : (utf8 "Infinity").all (fun b => 33 ≤ b.toNat && b.toNat < 128) = true := by decide
    refine List.forall_mem_append.2 ⟨fun b hb => (hs.byte b hb).isVisible, fun b hb => ?_⟩
    simpa [Text.IsVisible] using List.all_eq_true.1 hword b hb
  | decimal hspelled _ => exact fun b hb => (hspelled.byte b hb).isVisible

/-- A text that denotes a number is converted to it. -/
theorem Denotes.ofText_eq {t : Text} {x : Number} (h : Denotes leadingFive t x) : ofText t = x := by
  refine (ofText_eq_iff_denotes.2 ?_).1
  rw [Text.trim_of_visible h.visible]
  exact h

end Number

/-! ## Exponents beyond five digits -/

theorem Digits.lt {base : Nat} {t : Text} {n : Nat} (h : Digits base t n) : n < base ^ t.length := by
  induction h with
  | nil => exact Nat.one_pos
  | @snoc t n b d _ _ hlt ih =>
    have hmul : base * (n + 1) ≤ base * base ^ t.length := Nat.mul_le_mul_left _ ih
    rw [Nat.mul_add, Nat.mul_one] at hmul
    rw [List.length_append, List.length_singleton, Nat.pow_succ']
    omega

namespace Number

theorem ofDecimal_infinite {negative : Bool} {d : Decimal} {k : Nat} (hc : 10 ^ k ≤ d.coefficient)
    (he : 309 ≤ d.exponent + k) : ofDecimal negative d = infinite negative := by
  rw [ofDecimal_eq, ofQuotient_infinite_of_large]
  rw [Nat.le_div_iff_mul_le (Nat.pow_pos (by decide))]
  calc 2 ^ 2098 * 10 ^ (-d.exponent).toNat = unitsPerOne * 2 ^ 1024 * 10 ^ (-d.exponent).toNat := by rw [unitsPerOne_mul]
    _ ≤ unitsPerOne * 10 ^ 309 * 10 ^ (-d.exponent).toNat :=
      Nat.mul_le_mul_right _ (Nat.mul_le_mul_left _ (by decide +kernel))
    _ = unitsPerOne * 10 ^ (309 + (-d.exponent).toNat) := by rw [Nat.mul_assoc, ← Nat.pow_add]
    _ ≤ unitsPerOne * 10 ^ (k + d.exponent.toNat) :=
      Nat.mul_le_mul_left _ (Nat.pow_le_pow_right (by decide) (by omega))
    _ = 10 ^ k * unitsPerOne * 10 ^ d.exponent.toNat := by rw [Nat.pow_add]; ring
    _ ≤ d.coefficient * unitsPerOne * 10 ^ d.exponent.toNat := Nat.mul_le_mul_right _ (Nat.mul_le_mul_right _ hc)

theorem ofDecimal_zero {negative : Bool} {d : Decimal} {k : Nat} (hc : d.coefficient < 10 ^ k)
    (he : d.exponent + k + 324 ≤ 0) : ofDecimal negative d = zero negative := by
  have hpos : d.exponent.toNat = 0 := by omega
  rw [ofDecimal_eq, ofQuotient_zero_of_small]
  rw [hpos, Nat.pow_zero, Nat.mul_one]
  calc 2 * (d.coefficient * unitsPerOne) = d.coefficient * (unitsPerOne * 2 ^ 1) := by ring
    _ < 10 ^ k * (unitsPerOne * 2 ^ 1) :=
      Nat.mul_lt_mul_of_pos_right hc (by rw [unitsPerOne_mul]; exact Nat.pow_pos Nat.two_pos)
    _ ≤ 10 ^ k * 10 ^ 324 := Nat.mul_le_mul_left _ (by decide +kernel)
    _ = 10 ^ (k + 324) := by rw [Nat.pow_add]
    _ ≤ 10 ^ (-d.exponent).toNat := Nat.pow_le_pow_right (by decide) (by omega)

end Number

end Jolt
