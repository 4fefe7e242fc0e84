import Jolt.Number.Numeric
import Jolt.Proofs.Number.ReadBack
import Mathlib.Data.List.Basic
import Mathlib.Data.List.Induction
import Mathlib.Data.List.TakeWhile

/-!
# How numbers are spelled

Digits of a base with the number that they write (`Digits`), and decimal numerals with their value (`Decimal.Spelled`): a
sign, digits with a dot, an exponent. Reading accepts these and no others (`Decimal.read?_eq_some_iff`), and the scanner
accepts what can be read (`Decimal.isDecimal_eq`).

The value that is read need not be the one that is written. Of the digits of an exponent only the first five count
(`Decimal.exponentOf_eq`), so numerals are stated for any way of counting them.
-/

namespace Jolt

/-! ## Digits -/

/-- The byte `b` is a digit of value `d`; above nine it is a letter of either case. -/
def IsDigit (b : UInt8) (d : Nat) : Prop :=
  d < 10 ∧ b.toNat = 48 + d ∨ 10 ≤ d ∧ d < 16 ∧ (b.toNat = 87 + d ∨ b.toNat = 55 + d)

/-- Digits of a base, and the number that they write. -/
inductive Digits (base : Nat) : Text → Nat → Prop
  | nil : Digits base [] 0
  | snoc {t : Text} {n : Nat} {b : UInt8} {d : Nat} : Digits base t n → IsDigit b d → d < base →
      Digits base (t ++ [b]) (base * n + d)

theorem Text.toNat_lower (b : UInt8) :
    (lower b).toNat = if 65 ≤ b.toNat ∧ b.toNat ≤ 90 then b.toNat + 32 else b.toNat := by
  have hb := b.toNat_lt
  simp only [lower, Bool.and_eq_true, decide_eq_true_eq, UInt8.le_iff_toNat_le]
  have h₁ : (65 : UInt8).toNat = 65 := rfl
  have h₂ : (90 : UInt8).toNat = 90 := rfl
  have h₃ : (32 : UInt8).toNat = 32 := rfl
  rw [h₁, h₂]
  split
  · rw [UInt8.toNat_add, h₃]
    omega
  · rfl

theorem Text.isDigit_iff {b : UInt8} : isDigit b = true ↔ 48 ≤ b.toNat ∧ b.toNat ≤ 57 := by
  simp only [isDigit, Bool.and_eq_true, decide_eq_true_eq, UInt8.le_iff_toNat_le]
  exact Iff.rfl

theorem Number.Literal.digit?_eq_some_iff {b : UInt8} {d : Nat} : digit? b = some d ↔ IsDigit b d := by
  have hl := Text.toNat_lower b
  have h₁ : (97 : UInt8).toNat = 97 := rfl
  have h₂ : (102 : UInt8).toNat = 102 := rfl
  simp only [digit?, IsDigit, Text.isDigit_iff, Bool.and_eq_true, decide_eq_true_eq, UInt8.le_iff_toNat_le, h₁, h₂]
  generalize (Text.lower b).toNat = c at hl
  grind

theorem Number.isDigitOf_iff {base : Nat} {b : UInt8} : isDigitOf base b = true ↔ ∃ d, IsDigit b d ∧ d < base := by
  unfold isDigitOf
  cases h : Literal.digit? b with
  | none =>
    simp only [Bool.false_eq_true, false_iff, not_exists, not_and]
    intro d hd
    rw [← Literal.digit?_eq_some_iff, h] at hd
    cases hd
  | some d =>
    simp only [decide_eq_true_eq]
    constructor
    · exact fun hlt => ⟨d, Literal.digit?_eq_some_iff.1 h, hlt⟩
    · rintro ⟨d', hd', hlt⟩
      rw [← Literal.digit?_eq_some_iff, h] at hd'
      exact Option.some.inj hd' ▸ hlt

theorem Number.Literal.valueOf_snoc {base : Nat} {t : Text} {b : UInt8} {d : Nat} (h : IsDigit b d) :
    valueOf base (t ++ [b]) = base * valueOf base t + d := by
  rw [valueOf, List.foldl_append, List.foldl_cons, List.foldl_nil, digit?_eq_some_iff.2 h]
  rfl

/-- Digits of a base are bytes of it, and what they write is their value. -/
theorem digits_iff {base : Nat} {t : Text} {n : Nat} :
    Digits base t n ↔ (∀ b ∈ t, Number.isDigitOf base b = true) ∧ n = Number.Literal.valueOf base t := by
  constructor
  · intro h
    induction h with
    | nil => exact ⟨by simp, rfl⟩
    | snoc _ hd hlt ih =>
      refine ⟨fun b hb => ?_, by rw [Number.Literal.valueOf_snoc hd, ih.2]⟩
      rcases List.mem_append.1 hb with hb | hb
      · exact ih.1 b hb
      · rw [List.mem_singleton.1 hb]
        exact Number.isDigitOf_iff.2 ⟨_, hd, hlt⟩
  · rintro ⟨hall, rfl⟩
    induction t using List.reverseRecOn with
    | nil => exact .nil
    | append_singleton t b ih =>
      obtain ⟨d, hd, hlt⟩ := Number.isDigitOf_iff.1 (hall b (by simp))
      rw [Number.Literal.valueOf_snoc hd]
      exact .snoc (ih fun c hc => hall c (List.mem_append_left _ hc)) hd hlt

theorem isDigit_iff_ten {b : UInt8} : Text.isDigit b = true ↔ ∃ d, IsDigit b d ∧ d < 10 := by
  rw [Text.isDigit_iff]
  constructor
  · exact fun h => ⟨b.toNat - 48, .inl ⟨by omega, by omega⟩, by omega⟩
  · rintro ⟨d, hd, hlt⟩
    unfold IsDigit at hd
    omega

/-- Decimal digits, read as such. -/
theorem digits_ten_iff {t : Text} {n : Nat} :
    Digits 10 t n ↔ (∀ b ∈ t, Text.isDigit b = true) ∧ n = Text.toNat t := by
  have hbyte : ∀ b, Number.isDigitOf 10 b = Text.isDigit b := fun b => by
    rw [Bool.eq_iff_iff, Number.isDigitOf_iff, isDigit_iff_ten]
  have hvalue : (∀ b ∈ t, Text.isDigit b = true) → Number.Literal.valueOf 10 t = Text.toNat t := by
    intro h
    refine List.foldl_ext _ _ _ fun m b hb => ?_
    obtain ⟨d, hd, hlt⟩ := isDigit_iff_ten.1 (h b hb)
    rw [Number.Literal.digit?_eq_some_iff.2 hd]
    unfold IsDigit at hd
    simp only [Option.getD_some]
    omega
  rw [digits_iff]
  simp only [hbyte]
  exact and_congr_right fun h => by rw [hvalue h]

theorem digits_ofNat (n : Nat) : Digits 10 (Text.ofNat n) n :=
  digits_ten_iff.2 ⟨Text.isDigit_of_mem_ofNat, (Text.toNat_ofNat n).symm⟩

theorem digits_pad_iff {k : Nat} {t : Text} {n : Nat} : Digits 10 (List.replicate k Byte.zero ++ t) n ↔ Digits 10 t n := by
  have hzeros : ∀ b ∈ List.replicate k Byte.zero, Text.isDigit b = true := by
    intro b hb
    rw [List.eq_of_mem_replicate hb]
    rfl
  rw [digits_ten_iff, digits_ten_iff, Text.toNat_append, Text.toNat_zeros, Nat.zero_mul, Nat.zero_add,
    List.forall_mem_append, and_iff_right hzeros]

theorem Digits.dropZeros {t : Text} {n : Nat} (h : Digits 10 t n) : Digits 10 (t.dropWhile (· = Byte.zero)) n := by
  have hzeros : t.takeWhile (· = Byte.zero) = List.replicate (t.takeWhile (· = Byte.zero)).length Byte.zero := by
    refine List.eq_replicate_of_mem fun b hb => ?_
    simpa using List.mem_takeWhile_imp hb
  rw [← List.takeWhile_append_dropWhile (p := (· = Byte.zero)) (l := t), hzeros] at h
  exact digits_pad_iff.1 h

/-! ## Parts of a decimal numeral -/

/-- An optional sign; the flag says that it is a minus. -/
inductive Sign : Text → Bool → Prop
  | none : Sign [] false
  | plus : Sign [Byte.plus] false
  | minus : Sign [Byte.minus] true

/-- Digits with at most one dot and at least one digit. They write `coefficient / 10 ^ places`. -/
inductive Mantissa : Text → Nat → Nat → Prop
  | whole {w : Text} {n : Nat} : w ≠ [] → Digits 10 w n → Mantissa w n 0
  | pointed {w f : Text} {n : Nat} : w ≠ [] → Digits 10 (w ++ f) n → Mantissa (w ++ Byte.dot :: f) n f.length
  | fraction {f : Text} {n : Nat} : f ≠ [] → Digits 10 f n → Mantissa (Byte.dot :: f) n f.length

/-- An optional exponent after `e` or `E`. What its digits write goes through `count`. -/
inductive Exponent (count : Nat → Nat) : Text → Int → Prop
  | none : Exponent count [] 0
  | some {mark : UInt8} {s digits : Text} {negative : Bool} {n : Nat} : mark = 101 ∨ mark = 69 → Sign s negative →
      digits ≠ [] → Digits 10 digits n → Exponent count (mark :: (s ++ digits)) (Number.signed negative (count n))

/-- A decimal numeral with its sign and its value, where the digits of the exponent count as `count` says. -/
inductive Decimal.Spelled (count : Nat → Nat) : Text → Bool → Decimal → Prop
  | mk {s m e : Text} {negative : Bool} {coefficient places : Nat} {exponent : Int} : Sign s negative →
      Mantissa m coefficient places → Exponent count e exponent →
      Spelled count (s ++ (m ++ e)) negative ⟨coefficient, exponent - places⟩

/-- Of the digits of a number the first five. -/
def leadingFive (n : Nat) : Nat :=
  if n < 100000 then n else leadingFive (n / 10)

/-! ### Signs -/

theorem Text.exists_sign (t : Text) : ∃ s, Sign s t.signed.1 ∧ t = s ++ t.signed.2 := by
  unfold Text.signed
  split
  · exact ⟨[], .none, rfl⟩
  · rename_i c r
    split
    · rename_i h
      exact ⟨[c], h ▸ .minus, rfl⟩
    · split
      · rename_i h
        exact ⟨[c], h ▸ .plus, rfl⟩
      · exact ⟨[], .none, rfl⟩

theorem Sign.signed_append {s t : Text} {negative : Bool} (h : Sign s negative)
    (ht : ∀ b ∈ t.head?, b ≠ Byte.plus ∧ b ≠ Byte.minus) : (s ++ t).signed = (negative, t) := by
  cases h with
  | none =>
    cases t with
    | nil => rfl
    | cons c r =>
      have hc := ht c rfl
      rw [List.nil_append, Text.signed, if_neg hc.2, if_neg hc.1]
  | plus => rfl
  | minus => rfl

/-! ### Exponents -/

theorem leadingFive_of_lt {n : Nat} (h : n < 100000) : leadingFive n = n := by
  rw [leadingFive, if_pos h]

theorem leadingFive_of_le {n : Nat} (h : 100000 ≤ n) : leadingFive n = leadingFive (n / 10) := by
  rw [leadingFive, if_neg (Nat.not_lt.2 h)]

theorem le_leadingFive {n : Nat} (h : 10000 ≤ n) : 10000 ≤ leadingFive n := by
  fun_induction leadingFive n with
  | case1 => exact h
  | case2 n hn ih => exact ih (by omega)

/-- Reading the digits of an exponent stops counting after the first five. -/
theorem Decimal.exponentOf_eq {t : Text} {n : Nat} (h : Digits 10 t n) : exponentOf t = leadingFive n := by
  induction h with
  | nil => exact (leadingFive_of_lt (by decide)).symm
  | @snoc t n b d _ hd hlt ih =>
    have hb : b.toNat - 48 = d := by unfold IsDigit at hd; omega
    rw [exponentOf, List.foldl_append, List.foldl_cons, List.foldl_nil, ← exponentOf, ih, hb]
    by_cases hn : n < 10000
    · rw [leadingFive_of_lt (by omega), leadingFive_of_lt (by omega), if_pos hn]
    · rw [if_neg (Nat.not_lt.2 (le_leadingFive (Nat.not_lt.1 hn))), leadingFive_of_le (n := 10 * n + d) (by omega)]
      congr 1
      omega

theorem Text.lower_eq_e_iff {b : UInt8} : lower b = 101 ↔ b = 101 ∨ b = 69 := by
  have h := toNat_lower b
  simp only [← UInt8.toNat_inj]
  have h₁ : (101 : UInt8).toNat = 101 := rfl
  have h₂ : (69 : UInt8).toNat = 69 := rfl
  rw [h₁, h₂, h]
  grind

theorem digits_head {t : Text} {n : Nat} (h : Digits 10 t n) : ∀ b ∈ t.head?, b ≠ Byte.plus ∧ b ≠ Byte.minus := by
  intro b hb
  have hd := (digits_ten_iff.1 h).1 b (List.mem_of_mem_head? hb)
  constructor
  · rintro rfl
    exact absurd hd (by decide)
  · rintro rfl
    exact absurd hd (by decide)

theorem Decimal.readExponent?_eq_some_iff {t : Text} {x : Int} :
    readExponent? 101 t = some x ↔ Exponent leadingFive t x := by
  constructor
  · intro h
    cases t with
    | nil =>
      cases h
      exact .none
    | cons c r =>
      obtain ⟨s, hs, hr⟩ := Text.exists_sign r
      simp only [readExponent?] at h
      split at h
      · rename_i hc
        obtain ⟨hmark, hne, hall⟩ := hc
        cases h
        have hd : Digits 10 (Text.signed r).2 (Text.toNat (Text.signed r).2) := digits_ten_iff.2 ⟨List.all_eq_true.1 hall, rfl⟩
        rw [exponentOf_eq hd]
        conv => arg 2; rw [hr]
        exact .some (Text.lower_eq_e_iff.1 hmark) hs (by simpa using hne) hd
      · cases h
  · intro h
    cases h with
    | none => rfl
    | @some mark s digits negative n hmark hs hne hd =>
      have hsigned := hs.signed_append (digits_head hd)
      have hall := List.all_eq_true.2 (digits_ten_iff.1 hd).1
      simp only [readExponent?, hsigned]
      rw [if_pos ⟨Text.lower_eq_e_iff.2 hmark, by simpa using hne, hall⟩, exponentOf_eq hd]

/-! ### Mantissas -/

namespace Decimal

theorem readMantissa?_of_dot {t w r f rest : Text} (h : t.spanDigits = (w, Byte.dot :: r))
    (hr : r.spanDigits = (f, rest)) :
    readMantissa? t = if w.isEmpty && f.isEmpty then none else some (w, f, rest) := by
  simp only [readMantissa?, h]
  show (if w.isEmpty && r.spanDigits.1.isEmpty then none else some (w, r.spanDigits.1, r.spanDigits.2)) = _
  rw [hr]

theorem readMantissa?_of_no_dot {t w r : Text} (h : t.spanDigits = (w, r)) (hr : Byte.dot ∉ r.head?) :
    readMantissa? t = if w.isEmpty then none else some (w, [], r) := by
  simp only [readMantissa?, h]
  split
  · exact absurd rfl hr
  · simp

theorem spanDigits_append {w u : Text} (hw : ∀ b ∈ w, Text.isDigit b = true) (hu : ∀ b ∈ u.head?, Text.isDigit b = false) :
    (w ++ u).spanDigits = (w, u) :=
  Prod.ext (Text.takeWhile_digits hw hu).1 (Text.takeWhile_digits hw hu).2

theorem eq_of_spanDigits {t w r : Text} (h : t.spanDigits = (w, r)) : t = w ++ r ∧ ∀ b ∈ w, Text.isDigit b = true := by
  cases h
  exact ⟨List.takeWhile_append_dropWhile.symm, fun _ hb => List.mem_takeWhile_imp hb⟩

/-- What is read of a mantissa is one. -/
theorem readMantissa?_sound {t w f rest : Text} (h : readMantissa? t = some (w, f, rest)) :
    ∃ m, t = m ++ rest ∧ Mantissa m (Text.toNat (w ++ f)) f.length := by
  obtain ⟨w', r, hspan⟩ : ∃ w r, t.spanDigits = (w, r) := ⟨_, _, rfl⟩
  obtain ⟨rfl, hw⟩ := eq_of_spanDigits hspan
  by_cases hdot : Byte.dot ∈ r.head?
  · obtain ⟨u, rfl⟩ : ∃ u, r = Byte.dot :: u := List.head?_eq_some_iff.1 hdot
    obtain ⟨f', rest', hspan'⟩ : ∃ f rest, Text.spanDigits u = (f, rest) := ⟨_, _, rfl⟩
    obtain ⟨rfl, hf⟩ := eq_of_spanDigits hspan'
    rw [readMantissa?_of_dot hspan hspan'] at h
    split at h
    · cases h
    · rename_i hne
      cases h
      have hd : Digits 10 (w ++ f) (Text.toNat (w ++ f)) :=
        digits_ten_iff.2 ⟨fun b hb => (List.mem_append.1 hb).elim (hw b) (hf b), rfl⟩
      refine ⟨w ++ Byte.dot :: f, by simp, ?_⟩
      rcases eq_or_ne w [] with rfl | hw₀
      · exact .fraction (by simpa using hne) hd
      · exact .pointed hw₀ hd
  · rw [readMantissa?_of_no_dot hspan hdot] at h
    split at h
    · cases h
    · rename_i hne
      cases h
      rw [List.append_nil]
      exact ⟨w, rfl, .whole (by simpa using hne) (digits_ten_iff.2 ⟨hw, rfl⟩)⟩

end Decimal

/-- A mantissa is read as such, where no digit and no dot follow. -/
theorem Mantissa.readMantissa?_eq {m : Text} {n places : Nat} (h : Mantissa m n places) {rest : Text}
    (hrest : ∀ b ∈ rest.head?, Text.isDigit b = false ∧ b ≠ Byte.dot) :
    ∃ w f, Decimal.readMantissa? (m ++ rest) = some (w, f, rest) ∧ Text.toNat (w ++ f) = n ∧ f.length = places := by
  have hstop : ∀ b ∈ rest.head?, Text.isDigit b = false := fun b hb => (hrest b hb).1
  have hpoint : ∀ u : Text, ∀ b ∈ (Byte.dot :: u).head?, Text.isDigit b = false := by
    rintro u b ⟨⟩
    rfl
  have hpointed : ∀ {w f : Text}, w ++ f ≠ [] → (∀ b ∈ w ++ f, Text.isDigit b = true) →
      Decimal.readMantissa? (w ++ Byte.dot :: (f ++ rest)) = some (w, f, rest) := by
    intro w f hne hwf
    have hw := Decimal.spanDigits_append (fun b hb => hwf b (List.mem_append_left _ hb)) (hpoint (f ++ rest))
    have hf := Decimal.spanDigits_append (fun b hb => hwf b (List.mem_append_right _ hb)) hstop
    rw [Decimal.readMantissa?_of_dot hw hf, if_neg (by simpa using hne)]
  cases h with
  | whole hne hd =>
    obtain ⟨hw, rfl⟩ := digits_ten_iff.1 hd
    refine ⟨m, [], ?_, by simp, rfl⟩
    rw [Decimal.readMantissa?_of_no_dot (Decimal.spanDigits_append hw hstop) fun hb => (hrest _ hb).2 rfl]
    simp [hne]
  | @pointed w f _ hne hd =>
    obtain ⟨hwf, rfl⟩ := digits_ten_iff.1 hd
    refine ⟨w, f, ?_, rfl, rfl⟩
    rw [List.append_assoc]
    exact hpointed (by simp [hne]) hwf
  | @fraction f _ hne hd =>
    obtain ⟨hf, rfl⟩ := digits_ten_iff.1 hd
    exact ⟨[], f, hpointed (w := []) hne hf, rfl, rfl⟩

/-! ### Numerals -/

theorem Exponent.head {count : Nat → Nat} {e : Text} {x : Int} (h : Exponent count e x) :
    ∀ b ∈ e.head?, Text.isDigit b = false ∧ b ≠ Byte.dot := by
  cases h with
  | none => simp
  | some hmark _ _ _ =>
    rintro b ⟨⟩
    rcases hmark with rfl | rfl
    · decide
    · decide

theorem Mantissa.digit_or_dot {m : Text} {n places : Nat} (h : Mantissa m n places) :
    ∀ b ∈ m, Text.isDigit b = true ∨ b = Byte.dot := by
  intro b hb
  have hpoint : ∀ {w f : Text}, Digits 10 (w ++ f) n → b ∈ w ++ Byte.dot :: f → Text.isDigit b = true ∨ b = Byte.dot := by
    intro w f hd hb
    have hwf := (digits_ten_iff.1 hd).1
    rcases List.mem_append.1 hb with hb | hb
    · exact .inl (hwf b (List.mem_append_left _ hb))
    · rcases List.mem_cons.1 hb with hdot | hb
      · exact .inr hdot
      · exact .inl (hwf b (List.mem_append_right _ hb))
  cases h with
  | whole _ hd => exact .inl ((digits_ten_iff.1 hd).1 b hb)
  | pointed _ hd => exact hpoint hd hb
  | fraction _ hd => exact hpoint (w := []) hd hb

theorem Mantissa.head {m : Text} {n places : Nat} (h : Mantissa m n places) :
    ∃ b r, m = b :: r ∧ (Text.isDigit b = true ∨ b = Byte.dot) := by
  have hne : m ≠ [] := by
    cases h with
    | whole hne _ => exact hne
    | pointed _ _ | fraction _ _ => simp
  obtain ⟨b, r, rfl⟩ := List.exists_cons_of_ne_nil hne
  exact ⟨b, r, rfl, h.digit_or_dot b List.mem_cons_self⟩

theorem Mantissa.signed_append {s m e : Text} {negative : Bool} {n places : Nat} (hs : Sign s negative)
    (hm : Mantissa m n places) : (s ++ (m ++ e)).signed = (negative, m ++ e) := by
  obtain ⟨b, r, rfl, hb⟩ := hm.head
  refine hs.signed_append ?_
  rintro c ⟨⟩
  constructor
  · rintro rfl
    revert hb
    decide
  · rintro rfl
    revert hb
    decide

theorem Number.isExponent_eq (t : Text) : isExponent t = (Decimal.readExponent? 101 t).isSome := by
  cases t with
  | nil => rfl
  | cons mark r =>
    obtain ⟨digits, rest, hspan⟩ : ∃ digits rest, Text.spanDigits (Text.signed r).2 = (digits, rest) := ⟨_, _, rfl⟩
    -- the digits fill what follows the sign if nothing is left
    have hrest : (Text.signed r).2.all Text.isDigit = true ↔ rest = [] := by
      have hdrop : (Text.signed r).2.dropWhile Text.isDigit = rest := congrArg Prod.snd hspan
      rw [List.all_eq_true, ← List.dropWhile_eq_nil_iff, hdrop]
    have hdigits : rest = [] → (Text.signed r).2 = digits := fun h => by
      rw [(Decimal.eq_of_spanDigits hspan).1, h, List.append_nil]
    have hmark : (decide (mark = 101) || decide (mark = 69)) = true ↔ Text.lower mark = 101 := by
      simp [Text.lower_eq_e_iff]
    rw [Bool.eq_iff_iff]
    simp only [isExponent, hspan, Bool.and_eq_true, hmark, List.isEmpty_iff, Decimal.readExponent?, Option.isSome_ite,
      ← hrest]
    constructor
    · rintro ⟨⟨h₁, h₂⟩, h₃⟩
      exact ⟨h₁, by rwa [hdigits (hrest.1 h₃)], h₃⟩
    · rintro ⟨h₁, h₂, h₃⟩
      exact ⟨⟨h₁, by rwa [← hdigits (hrest.1 h₃)]⟩, h₃⟩

namespace Decimal

/-- Reading a numeral without a sign takes it apart. -/
theorem readUnsigned?_eq_some_iff {t : Text} {d : Decimal} : readUnsigned? t = some d ↔
    ∃ m e n places x, t = m ++ e ∧ Mantissa m n places ∧ Exponent leadingFive e x ∧ d = ⟨n, x - places⟩ := by
  constructor
  · intro h
    simp only [readUnsigned?, Option.bind_eq_bind, Option.bind_eq_some_iff] at h
    obtain ⟨⟨w, f, rest⟩, hread, x, hx, hd⟩ := h
    obtain ⟨m, rfl, hm⟩ := readMantissa?_sound hread
    cases hd
    exact ⟨m, rest, _, _, x, rfl, hm, readExponent?_eq_some_iff.1 hx, rfl⟩
  · rintro ⟨m, e, n, places, x, rfl, hm, he, rfl⟩
    obtain ⟨w, f, hread, rfl, rfl⟩ := hm.readMantissa?_eq he.head
    simp [readUnsigned?, hread, readExponent?_eq_some_iff.2 he]

/-- Reading accepts the numerals, and of the digits of an exponent the first five count. -/
theorem read?_eq_some_iff {t : Text} {negative : Bool} {d : Decimal} :
    read? t = some (negative, d) ↔ Spelled leadingFive t negative d := by
  constructor
  · intro h
    simp only [read?, Option.map_eq_some_iff, Prod.mk.injEq, exists_eq_right_right] at h
    obtain ⟨hd, rfl⟩ := h
    obtain ⟨m, e, n, places, x, ht, hm, he, rfl⟩ := readUnsigned?_eq_some_iff.1 hd
    obtain ⟨s, hs, hsplit⟩ := t.exists_sign
    rw [ht] at hsplit
    have hspelled := Spelled.mk hs hm he
    rwa [← hsplit] at hspelled
  · rintro ⟨hs, hm, he⟩
    simp only [read?, hm.signed_append hs, readUnsigned?_eq_some_iff.2 ⟨_, _, _, _, _, rfl, hm, he, rfl⟩, Option.map_some]

/-- The scanner accepts what can be read as a decimal. -/
theorem isDecimal_eq (t : Text) : Number.isDecimal t = (read? t).isSome := by
  have hread : (read? t).isSome = (readMantissa? t.signed.2).any fun p => Number.isExponent p.2.2 := by
    simp only [read?, readUnsigned?, Option.isSome_map, Number.isExponent_eq]
    cases readMantissa? t.signed.2 with
    | none => rfl
    | some p => simp [Option.isSome_bind]
  rw [hread]
  obtain ⟨w, r, hspan⟩ : ∃ w r, t.signed.2.spanDigits = (w, r) := ⟨_, _, rfl⟩
  by_cases hdot : Byte.dot ∈ r.head?
  · obtain ⟨u, rfl⟩ : ∃ u, r = Byte.dot :: u := List.head?_eq_some_iff.1 hdot
    obtain ⟨f, rest, hspan'⟩ : ∃ f rest, Text.spanDigits u = (f, rest) := ⟨_, _, rfl⟩
    rw [readMantissa?_of_dot hspan hspan']
    simp only [Number.isDecimal, hspan]
    show (!(w.isEmpty && (Text.spanDigits u).1.isEmpty) && Number.isExponent (Text.spanDigits u).2) = _
    rw [hspan']
    cases w.isEmpty && f.isEmpty <;> rfl
  · rw [readMantissa?_of_no_dot hspan hdot]
    simp only [Number.isDecimal, hspan]
    split
    · exact absurd rfl hdot
    · cases w.isEmpty <;> simp

end Decimal

/-! ### The bytes of a numeral -/

/-- The bytes that numerals are made of. -/
def IsNumeric (b : UInt8) : Prop :=
  Text.isDigit b = true ∨ b ∈ [Byte.plus, Byte.minus, Byte.dot, 101, 69]

theorem Sign.byte {s : Text} {negative : Bool} (h : Sign s negative) : ∀ b ∈ s, IsNumeric b := by
  intro b hb
  cases h with
  | none => cases hb
  | plus => exact .inr (by simp_all)
  | minus => exact .inr (by simp_all)

theorem Mantissa.byte {m : Text} {n places : Nat} (h : Mantissa m n places) : ∀ b ∈ m, IsNumeric b := by
  intro b hb
  rcases h.digit_or_dot b hb with hdigit | rfl
  · exact .inl hdigit
  · exact .inr (by simp)

theorem Exponent.byte {count : Nat → Nat} {e : Text} {x : Int} (h : Exponent count e x) : ∀ b ∈ e, IsNumeric b := by
  intro b hb
  cases h with
  | none => cases hb
  | some hmark hs _ hd =>
    rcases List.mem_cons.1 hb with rfl | hb
    · exact .inr (by rcases hmark with rfl | rfl <;> simp)
    · rcases List.mem_append.1 hb with hb | hb
      · exact hs.byte b hb
      · exact .inl ((digits_ten_iff.1 hd).1 b hb)

theorem Decimal.Spelled.byte {count : Nat → Nat} {t : Text} {negative : Bool} {d : Decimal}
    (h : Spelled count t negative d) : ∀ b ∈ t, IsNumeric b := by
  obtain ⟨hs, hm, he⟩ := h
  intro b hb
  rcases List.mem_append.1 hb with hb | hb
  · exact hs.byte b hb
  · exact (List.mem_append.1 hb).elim (hm.byte b) (he.byte b)

end Jolt
