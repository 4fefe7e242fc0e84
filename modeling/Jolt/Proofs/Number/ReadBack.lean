import Jolt.Number.Literal
import Jolt.Number.Numeral
import Jolt.Proofs.Number.Rounding

/-!
# Numbers read back

The shortest decimal of a magnitude rounds to it (`Magnitude.ofDecimal_shortest`). Set positionally it is a numeral: digits
with at most one dot, which stands between digits (`Numeral`). A numeral is a literal of its value
(`Numeral.ofLiteral?_eq`), so a magnitude is read back from its text (`Magnitude.ofLiteral?_positional`).
-/

namespace Jolt

/-! ## Digits -/

namespace Text

theorem foldl_digits (t : Text) (n : Nat) :
    t.foldl (fun n b => 10 * n + (b.toNat - 48)) n = n * 10 ^ t.length + toNat t := by
  induction t generalizing n with
  | nil => simp [toNat]
  | cons b t ih =>
    simp only [toNat, List.foldl_cons, List.length_cons] at ih ⊢
    rw [ih, ih (10 * 0 + (b.toNat - 48))]
    ring

theorem toNat_append (a b : Text) : toNat (a ++ b) = toNat a * 10 ^ b.length + toNat b := by
  rw [toNat, List.foldl_append, foldl_digits b]
  rfl

theorem toNat_digitByte {d : Nat} (h : d < 10) : (digitByte d).toNat = 48 + d := by
  simp only [digitByte, UInt8.toNat_ofNat']
  omega

theorem isDigit_digitByte {d : Nat} (h : d < 10) : isDigit (digitByte d) = true := by
  simp only [isDigit, Bool.and_eq_true, decide_eq_true_eq, UInt8.le_iff_toNat_le, toNat_digitByte h]
  exact ⟨Nat.le_add_right 48 d, by simp; omega⟩

theorem toNat_ofNat (n : Nat) : toNat (ofNat n) = n := by
  fun_induction ofNat n with
  | case1 n h =>
    simp only [toNat, List.foldl_cons, List.foldl_nil, toNat_digitByte h]
    omega
  | case2 n h ih =>
    rw [toNat_append, ih]
    simp only [toNat, List.foldl_cons, List.foldl_nil, List.length_singleton, toNat_digitByte (Nat.mod_lt n (by decide))]
    omega

theorem isDigit_of_mem_ofNat {n : Nat} : ∀ b ∈ ofNat n, isDigit b = true := by
  fun_induction ofNat n with
  | case1 n h => simp [isDigit_digitByte h]
  | case2 n h ih =>
    intro b hb
    rcases List.mem_append.1 hb with hb | hb
    · exact ih b hb
    · rw [List.mem_singleton.1 hb]
      exact isDigit_digitByte (Nat.mod_lt n (by decide))

theorem ofNat_ne_nil (n : Nat) : ofNat n ≠ [] := by
  rw [ofNat]
  split <;> simp

theorem toNat_zeros (k : Nat) : toNat (List.replicate k Byte.zero) = 0 := by
  induction k with
  | zero => rfl
  | succ k ih => rw [List.replicate_succ', toNat_append, ih]; rfl

end Text

/-! ## The shortest decimal -/

theorem Decimal.ofDecimal_stripZeros (negative : Bool) (fuel : Nat) (d : Decimal) :
    Number.ofDecimal negative (d.stripZeros fuel) = Number.ofDecimal negative d := by
  fun_induction stripZeros fuel d with
  | case1 => rfl
  | case2 fuel d h ih =>
    rw [ih]
    apply Number.ofDecimal_congr
    obtain ⟨c, e⟩ := d
    obtain ⟨q, rfl⟩ := Nat.dvd_of_mod_eq_zero h.2
    simp only [Nat.mul_div_cancel_left q (by decide : 0 < 10)]
    -- the power of ten moves from the coefficient to the exponent, above or below the line
    rcases Int.lt_or_le e 0 with he | he
    · have h₁ : (-e).toNat = (-(e + 1)).toNat + 1 := by omega
      have h₂ : (e + 1).toNat = 0 := by omega
      have h₃ : e.toNat = 0 := by omega
      rw [h₁, h₂, h₃]
      ring
    · have h₁ : (-e).toNat = 0 := by omega
      have h₂ : (-(e + 1)).toNat = 0 := by omega
      have h₃ : (e + 1).toNat = e.toNat + 1 := by omega
      rw [h₁, h₂, h₃]
      ring
  | case3 => rfl

namespace Magnitude

theorem ofQuotient_units (m : Magnitude) : Number.ofQuotient false m.units 1 = .finite false m := by
  rw [Number.ofQuotient, Number.nearestPoint_onGrid m.onGrid, Number.ofUnits, dif_pos m.onGrid]

theorem ofDecimal_exactDecimal (m : Magnitude) : Number.ofDecimal false m.exactDecimal = .finite false m := by
  rw [Number.ofDecimal_eq, ← m.ofQuotient_units]
  refine Number.ofQuotient_congr (Nat.pow_pos (by decide)) Nat.one_pos ?_
  have h₁ : (-m.exactDecimal.exponent).toNat = 1074 := rfl
  have h₂ : m.exactDecimal.exponent.toNat = 0 := rfl
  have h₃ : m.exactDecimal.coefficient = m.units * 5 ^ 1074 := rfl
  rw [h₁, h₂, h₃, Number.unitsPerOne, Nat.pow_eq, Nat.pow_zero, Nat.mul_one, Nat.mul_one, Nat.mul_assoc, ← Nat.mul_pow]

theorem ofDecimal_of_onDecimalGrid? {m : Magnitude} {e : Int} {d : Decimal} (h : m.onDecimalGrid? e = some d) :
    Number.ofDecimal false d = .finite false m := by
  have := List.find?_some h
  simpa [readsBack] using this

/-- The decimal that is written for a magnitude rounds to it. -/
theorem ofDecimal_shortest (m : Magnitude) : Number.ofDecimal false m.shortest = .finite false m := by
  unfold shortest
  split
  · rename_i h
    obtain ⟨units, onGrid⟩ := m
    obtain rfl : units = 0 := h
    rfl
  · rw [Decimal.ofDecimal_stripZeros]
    cases h : List.findSome? m.onDecimalGrid? ((List.range 20).map fun (i : Nat) => m.topExponent - i) with
    | none => exact m.ofDecimal_exactDecimal
    | some d =>
      obtain ⟨e, -, he⟩ := List.exists_of_findSome?_eq_some h
      exact ofDecimal_of_onDecimalGrid? he

end Magnitude

/-! ## Numerals -/

/-- The text `t` is digits with at most one dot, which stands between digits, and has the value `d`. -/
inductive Numeral : Text → Decimal → Prop
  | whole {w : Text} : w ≠ [] → (∀ b ∈ w, Text.isDigit b = true) → Numeral w ⟨Text.toNat w, 0⟩
  | fraction {w f : Text} : w ≠ [] → f ≠ [] → (∀ b ∈ w, Text.isDigit b = true) → (∀ b ∈ f, Text.isDigit b = true) →
      Numeral (w ++ Byte.dot :: f) ⟨Text.toNat (w ++ f), -f.length⟩

/-- A decimal that is set positionally is a numeral of the same value. -/
theorem Decimal.numeral_positional (d : Decimal) :
    ∃ d', Numeral d.positional d' ∧ ∀ negative, Number.ofDecimal negative d' = Number.ofDecimal negative d := by
  obtain ⟨c, e⟩ := d
  have hd : ∀ b ∈ Text.ofNat c, Text.isDigit b = true := Text.isDigit_of_mem_ofNat
  have hz : ∀ (k : Nat), ∀ b ∈ List.replicate k Byte.zero, Text.isDigit b = true := by
    intro k b hb
    rw [List.eq_of_mem_replicate hb]
    decide
  have hlen : 0 < (Text.ofNat c).length := List.length_pos_iff.2 (Text.ofNat_ne_nil c)
  unfold positional
  dsimp only [digits]
  by_cases hp : e + (Text.ofNat c).length ≤ 0
  · rw [if_pos hp]
    obtain ⟨k, hk⟩ : ∃ k, (-(e + (Text.ofNat c).length)).toNat = k := ⟨_, rfl⟩
    have hf : ∀ b ∈ List.replicate k Byte.zero ++ Text.ofNat c, Text.isDigit b = true := fun b hb =>
      (List.mem_append.1 hb).elim (hz k b) (hd b)
    have hnum := Numeral.fraction (w := [Byte.zero]) (by simp) (by simp [Text.ofNat_ne_nil])
      (List.forall_mem_singleton.2 rfl) hf
    refine ⟨_, by rw [hk]; exact hnum, fun negative => ?_⟩
    have hc : Text.toNat ([Byte.zero] ++ (List.replicate k Byte.zero ++ Text.ofNat c)) = c := by
      have hzero : Text.toNat [Byte.zero] = 0 := rfl
      rw [Text.toNat_append, Text.toNat_append, Text.toNat_zeros, Text.toNat_ofNat, hzero]
      simp
    have he : -((List.replicate k Byte.zero ++ Text.ofNat c).length : Int) = e := by
      rw [List.length_append, List.length_replicate]
      omega
    rw [hc, he]
  rw [if_neg hp]
  by_cases he : 0 ≤ e
  · rw [if_pos he]
    refine ⟨_, .whole (by simp [Text.ofNat_ne_nil]) fun b hb => (List.mem_append.1 hb).elim (hd b) (hz _ b),
      fun negative => ?_⟩
    apply Number.ofDecimal_congr
    have hn : (-e).toNat = 0 := by omega
    rw [Text.toNat_append, Text.toNat_ofNat, Text.toNat_zeros, List.length_replicate, hn]
    simp
  · rw [if_neg he]
    obtain ⟨k, hk⟩ : ∃ k, (e + (Text.ofNat c).length).toNat = k := ⟨_, rfl⟩
    have hnum := Numeral.fraction (w := (Text.ofNat c).take k) (f := (Text.ofNat c).drop k)
      (List.length_pos_iff.1 (by rw [List.length_take]; omega)) (List.length_pos_iff.1 (by rw [List.length_drop]; omega))
      (fun b hb => hd b (List.mem_of_mem_take hb)) (fun b hb => hd b (List.mem_of_mem_drop hb))
    refine ⟨_, by rw [hk, List.append_assoc]; exact hnum, fun negative => ?_⟩
    have he : -(((Text.ofNat c).drop k).length : Int) = e := by
      rw [List.length_drop]
      omega
    rw [List.take_append_drop, Text.toNat_ofNat, he]

/-! ## Numerals are literals -/

theorem Text.takeWhile_digits {w u : Text} (hw : ∀ b ∈ w, isDigit b = true) (hu : ∀ b ∈ u.head?, isDigit b = false) :
    (w ++ u).takeWhile isDigit = w ∧ (w ++ u).dropWhile isDigit = u := by
  have htake : u.takeWhile isDigit = [] ∧ u.dropWhile isDigit = u := by
    cases u with
    | nil => exact ⟨rfl, rfl⟩
    | cons b u => simp [hu b rfl]
  rw [List.takeWhile_append_of_pos hw, List.dropWhile_append_of_pos hw, htake.1, htake.2, List.append_nil]
  exact ⟨rfl, rfl⟩

theorem Numeral.readUnsigned?_eq {t : Text} {d : Decimal} (h : Numeral t d) : Decimal.readUnsigned? t = some d := by
  cases h with
  | whole hne hw =>
    have hspan := Text.takeWhile_digits hw (u := []) (by simp)
    rw [List.append_nil] at hspan
    simp [Decimal.readUnsigned?, Decimal.readMantissa?, Text.spanDigits, hspan, hne, Decimal.readExponent?]
  | @fraction w f hne _ hw hf =>
    have hspan := Text.takeWhile_digits hw (u := Byte.dot :: f) (by simp; decide)
    have hspan' := Text.takeWhile_digits hf (u := []) (by simp)
    rw [List.append_nil] at hspan'
    have hm : Decimal.readMantissa? (w ++ Byte.dot :: f) = some (w, f, []) := by
      unfold Decimal.readMantissa? Text.spanDigits
      dsimp only
      rw [hspan.1, hspan.2]
      show (if w.isEmpty && (f.takeWhile Text.isDigit).isEmpty then none
        else some (w, f.takeWhile Text.isDigit, f.dropWhile Text.isDigit)) = some (w, f, [])
      rw [hspan'.1, hspan'.2]
      simp [hne]
    simp [Decimal.readUnsigned?, hm, Decimal.readExponent?]

/-- A byte of a numeral. -/
theorem Numeral.byte {t : Text} {d : Decimal} (h : Numeral t d) : ∀ b ∈ t, Text.isDigit b = true ∨ b = Byte.dot := by
  cases h with
  | whole _ hw => exact fun b hb => .inl (hw b hb)
  | fraction _ _ hw hf =>
    intro b hb
    rcases List.mem_append.1 hb with hb | hb
    · exact .inl (hw b hb)
    · rcases List.mem_cons.1 hb with hb | hb
      · exact .inr hb
      · exact .inl (hf b hb)

theorem Numeral.head {t : Text} {d : Decimal} (h : Numeral t d) : ∃ c r, t = c :: r ∧ Text.isDigit c = true := by
  cases h with
  | @whole w hne hw =>
    obtain ⟨c, r, rfl⟩ := List.exists_cons_of_ne_nil hne
    exact ⟨c, r, rfl, hw c List.mem_cons_self⟩
  | @fraction w f hne _ hw _ =>
    obtain ⟨c, r, rfl⟩ := List.exists_cons_of_ne_nil hne
    exact ⟨c, _, rfl, hw c List.mem_cons_self⟩

theorem Number.Literal.underscoresInPlace_of_not_mem {isDigit : UInt8 → Bool} {t : Text} (h : Byte.underscore ∉ t)
    (afterDigit : Bool) : underscoresInPlace isDigit afterDigit false t = true := by
  induction t generalizing afterDigit with
  | nil => rfl
  | cons c t ih =>
    rw [List.mem_cons, not_or] at h
    rw [underscoresInPlace]
    split
    · exact ih h.2 true
    · rw [if_neg (Ne.symm h.1), ih h.2 false]
      rfl

theorem Number.Literal.afterHexMark?_eq_none {t : Text} (h : ∀ b ∈ t, Text.lower b ≠ 120) : afterHexMark? t = none := by
  unfold afterHexMark?
  split
  · rename_i x r
    exact if_neg (h x (by simp))
  · rfl

theorem Text.lower_of_isDigit {b : UInt8} (h : isDigit b = true) : lower b = b := by
  simp only [isDigit, Bool.and_eq_true, decide_eq_true_eq, UInt8.le_iff_toNat_le] at h
  have : (65 ≤ b && b ≤ 90) = false := by
    simp only [Bool.and_eq_false_iff, decide_eq_false_iff_not, UInt8.le_iff_toNat_le]
    left
    have h₁ : (57 : UInt8).toNat = 57 := rfl
    have h₂ : (65 : UInt8).toNat = 65 := rfl
    omega
  simp [lower, this]

/-- A text that starts with a digit has no sign and is no word. -/
theorem Number.ofLiteral?_of_isDigit {c : UInt8} (r : Text) (hc : Text.isDigit c = true) :
    ofLiteral? (c :: r) = (Literal.readNumeral? false (c :: r)).filter isFinite := by
  have hsigned : Text.signed (c :: r) = (false, c :: r) := by
    have hne : ∀ a, Text.isDigit a = false → c ≠ a := by
      rintro a ha rfl
      simp [ha] at hc
    rw [Text.signed, if_neg (hne _ (by decide)), if_neg (hne _ (by decide))]
  have hword : ∀ (a : UInt8) (u : Text), Text.isDigit a = false → Literal.isWord (c :: r) (a :: u) = false := by
    intro a u ha
    have hne : c ≠ a := by
      rintro rfl
      rw [hc] at ha
      cases ha
    simp [Literal.isWord, Text.lower_of_isDigit hc, hne]
  unfold ofLiteral?
  rw [hsigned]
  dsimp only
  rw [if_neg, if_neg]
  · exact Bool.eq_false_iff.1 (hword 110 (utf8 "an") (by decide))
  · rw [Bool.or_eq_true, not_or]
    exact ⟨Bool.eq_false_iff.1 (hword 105 (utf8 "nf") (by decide)),
      Bool.eq_false_iff.1 (hword 105 (utf8 "nfinity") (by decide))⟩

/-- A numeral stands for the number nearest to its value, if that is finite. -/
theorem Numeral.ofLiteral?_eq {t : Text} {d : Decimal} (h : Numeral t d) :
    Number.ofLiteral? t = (some (Number.ofDecimal false d)).filter Number.isFinite := by
  obtain ⟨c, r, rfl, hc⟩ := h.head
  have hbyte := h.byte
  have hu : Byte.underscore ∉ c :: r := fun hu => by
    rcases hbyte _ hu with h | h
    · exact absurd h (by decide)
    · exact absurd h (by decide)
  have hfilter : (c :: r).filter (· ≠ Byte.underscore) = c :: r :=
    List.filter_eq_self.2 fun b hb => by
      simp only [decide_eq_true_eq]
      rintro rfl
      exact hu hb
  have hhex : Number.Literal.afterHexMark? (c :: r) = none :=
    Number.Literal.afterHexMark?_eq_none fun b hb hx => by
      rcases hbyte b hb with h | rfl
      · rw [Text.lower_of_isDigit h] at hx
        subst hx
        exact absurd h (by decide)
      · exact absurd hx (by decide)
  have hplain : Number.Literal.readNumeral? false (c :: r) = some (Number.ofDecimal false d) := by
    unfold Number.Literal.readNumeral?
    rw [hhex, hfilter]
    dsimp only
    rw [if_pos (Number.Literal.underscoresInPlace_of_not_mem hu false), h.readUnsigned?_eq]
    rfl
  rw [Number.ofLiteral?_of_isDigit r hc, hplain]

/-- The text of a magnitude is a numeral that stands for it. -/
theorem Magnitude.numeral_positional (m : Magnitude) :
    ∃ d, Numeral m.shortest.positional d ∧ Number.ofLiteral? m.shortest.positional = some (.finite false m) := by
  obtain ⟨d, hd, hv⟩ := m.shortest.numeral_positional
  refine ⟨d, hd, ?_⟩
  rw [hd.ofLiteral?_eq, hv, m.ofDecimal_shortest]
  rfl

end Jolt
