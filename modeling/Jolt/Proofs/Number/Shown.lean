import Jolt.Evaluation
import Jolt.Proofs.Number.Denotation

/-!
# Numbers shown and read

The text that a number is shown as denotes it (`Value.denotes_numberText`). The text is a sign and the shortest decimal that
rounds to the number, in place or with an exponent (`Decimal.Written`). Trimming the exponent keeps the decimal
(`Decimal.Written.trimExponent`), and an exponent is too small for digits of it not to count (`Decimal.natAbs_leading_lt`).
-/

namespace Jolt

/-! ## Exponents without padding -/

/-- A positive number has no leading zeros. -/
theorem Text.pow_length_ofNat_le {n : Nat} (h : 0 < n) : 10 ^ ((ofNat n).length - 1) ≤ n := by
  fun_induction ofNat n with
  | case1 n _ => exact h
  | case2 n hge ih =>
    have hlen : 0 < (ofNat (n / 10)).length := List.length_pos_iff.2 (ofNat_ne_nil _)
    have hsucc : (ofNat (n / 10) ++ [digitByte (n % 10)]).length - 1 = (ofNat (n / 10)).length - 1 + 1 := by
      rw [List.length_append, List.length_singleton]
      omega
    have hdiv := ih (by omega)
    rw [hsucc, Nat.pow_succ]
    omega

theorem Value.trimExponent_of_not_mem {t : Text} (h : 101 ∉ t) : trimExponent t = t := by
  have hdrop : t.dropWhile (· ≠ 101) = [] :=
    List.dropWhile_eq_nil_iff.2 fun _ hb => decide_eq_true (ne_of_mem_of_not_mem hb h)
  rw [trimExponent, hdrop]

/-- Trimming keeps the digits of an exponent that count. -/
theorem Value.trimExponent_append {u digits : Text} (sign : UInt8) {n : Nat} (hu : 101 ∉ u) (hne : digits ≠ [])
    (hd : Digits 10 digits n) :
    ∃ digits', digits' ≠ [] ∧ Digits 10 digits' n ∧
      trimExponent (u ++ 101 :: sign :: digits) = u ++ 101 :: sign :: digits' := by
  have hall : ∀ b ∈ u, decide (b ≠ 101) = true := fun _ hb => decide_eq_true (ne_of_mem_of_not_mem hb hu)
  have htake : (u ++ 101 :: sign :: digits).takeWhile (· ≠ 101) = u := by
    rw [List.takeWhile_append_of_pos hall, List.takeWhile_cons_of_neg (by decide), List.append_nil]
  have hdrop : (u ++ 101 :: sign :: digits).dropWhile (· ≠ 101) = 101 :: sign :: digits := by
    rw [List.dropWhile_append_of_pos hall, List.dropWhile_cons_of_neg (by decide)]
  obtain ⟨c, r, rfl⟩ := List.exists_cons_of_ne_nil hne
  have htrim : trimExponent (u ++ 101 :: sign :: c :: r) = u ++ 101 :: sign ::
      if ((c :: r).dropWhile (· = Byte.zero)).isEmpty then [Byte.zero] else (c :: r).dropWhile (· = Byte.zero) := by
    rw [trimExponent, hdrop]
    dsimp only
    rw [htake, List.append_assoc]
    rfl
  have hdropped := hd.dropZeros
  rw [htrim]
  split
  · rename_i hempty
    rw [List.isEmpty_iff.1 hempty, digits_ten_iff] at hdropped
    refine ⟨_, by simp, digits_ten_iff.2 ⟨List.forall_mem_singleton.2 rfl, ?_⟩, rfl⟩
    rw [hdropped.2]
    rfl
  · rename_i hempty
    exact ⟨_, fun h => hempty (List.isEmpty_iff.2 h), hdropped, rfl⟩

/-! ## Texts of a decimal -/

/-- The text writes the decimal: in place, or with its digits behind the leading one after a dot and a signed exponent. -/
inductive Decimal.Written (d : Decimal) : Text → Prop
  | inPlace {t : Text} {d' : Decimal} : Numeral t d' →
      (∀ negative, Number.ofDecimal negative d' = Number.ofDecimal negative d) → Written d t
  | scientific {m digits : Text} {sign : UInt8} : Mantissa m d.coefficient (d.digits.length - 1) →
      Sign [sign] (d.leading < 0) → digits ≠ [] → Digits 10 digits d.leading.natAbs →
      Written d (m ++ 101 :: sign :: digits)

theorem Numeral.spelled {count : Nat → Nat} {s t : Text} {negative : Bool} {d : Decimal} (hs : Sign s negative)
    (h : Numeral t d) : Decimal.Spelled count (s ++ t) negative d := by
  cases h with
  | whole hne hw => simpa using Decimal.Spelled.mk hs (.whole hne (digits_ten_iff.2 ⟨hw, rfl⟩)) .none
  | fraction hne _ hw hf =>
    have hdigits := digits_ten_iff.2 ⟨List.forall_mem_append.2 ⟨hw, hf⟩, rfl⟩
    simpa using Decimal.Spelled.mk hs (.pointed hne hdigits) .none

theorem not_mem_of_digit_or_dot {t : Text} (h : ∀ b ∈ t, Text.isDigit b = true ∨ b = Byte.dot) : 101 ∉ t := by
  intro hb
  rcases h _ hb with h | h <;> revert h <;> decide

namespace Decimal

theorem length_digits_pos (d : Decimal) : 0 < d.digits.length :=
  List.length_pos_iff.2 (Text.ofNat_ne_nil _)

theorem written_positional (d : Decimal) : Written d d.positional := by
  obtain ⟨d', hnum, heq⟩ := d.numeral_positional
  exact .inPlace hnum heq

theorem written_scientific (d : Decimal) (exponentWidth : Nat) : Written d (d.scientific exponentWidth) := by
  have hlen := d.length_digits_pos
  have hfirst : d.digits.take 1 ≠ [] := List.length_pos_iff.1 (by rw [List.length_take]; omega)
  have hmantissa : Mantissa (d.digits.take 1 ++ if (d.digits.drop 1).isEmpty then [] else Byte.dot :: d.digits.drop 1)
      d.coefficient (d.digits.length - 1) := by
    have hdigits : Digits 10 d.digits d.coefficient := digits_ofNat _
    rw [← List.take_append_drop 1 d.digits] at hdigits
    split
    · rename_i hempty
      rw [List.isEmpty_iff] at hempty
      rw [hempty, List.append_nil] at hdigits
      have hone : d.digits.length - 1 = 0 := by rw [← List.length_drop, hempty]; rfl
      rw [List.append_nil, hone]
      exact .whole hfirst hdigits
    · rw [← List.length_drop]
      exact .pointed hfirst hdigits
  have hsign : Sign [if d.leading < 0 then Byte.minus else Byte.plus] (d.leading < 0) := by
    by_cases h : d.leading < 0
    · simp only [h, if_true, decide_true]
      exact .minus
    · simp only [h, if_false, decide_false]
      exact .plus
  have hexponent : Digits 10 (List.replicate (exponentWidth - (Text.ofNat d.leading.natAbs).length) Byte.zero ++
      Text.ofNat d.leading.natAbs) d.leading.natAbs := digits_pad_iff.2 (digits_ofNat _)
  have hwritten := Written.scientific hmantissa hsign
    (List.append_ne_nil_of_right_ne_nil _ (Text.ofNat_ne_nil _)) hexponent
  simpa only [scientific, List.append_assoc, List.cons_append, List.nil_append] using hwritten

/-- Trimming the exponent leaves a text of the same decimal, behind its sign. -/
theorem Written.trimExponent {d : Decimal} {s t : Text} {negative : Bool} (hs : Sign s negative) (h : Written d t) :
    ∃ t', Value.trimExponent (s ++ t) = s ++ t' ∧ Written d t' := by
  have hsign : 101 ∉ s := by
    intro hb
    cases hs <;> revert hb <;> decide
  cases h with
  | inPlace hnum heq =>
    have hbyte : 101 ∉ s ++ t := by
      rw [List.mem_append, not_or]
      exact ⟨hsign, not_mem_of_digit_or_dot hnum.byte⟩
    exact ⟨t, Value.trimExponent_of_not_mem hbyte, .inPlace hnum heq⟩
  | @scientific m digits sign hm hsgn hne hd =>
    have hu : 101 ∉ s ++ m := by
      rw [List.mem_append, not_or]
      exact ⟨hsign, not_mem_of_digit_or_dot hm.digit_or_dot⟩
    obtain ⟨digits', hne', hd', heq⟩ := Value.trimExponent_append sign hu hne hd
    rw [List.append_assoc, List.append_assoc] at heq
    exact ⟨_, heq, .scientific hm hsgn hne' hd'⟩

/-- What writes a decimal is a numeral of the same number, if the digits of the exponent count. -/
theorem Written.spelled {d : Decimal} {s t : Text} {negative : Bool} {count : Nat → Nat} (hs : Sign s negative)
    (hcount : count d.leading.natAbs = d.leading.natAbs) (h : Written d t) :
    ∃ d', Spelled count (s ++ t) negative d' ∧ Number.ofDecimal negative d' = Number.ofDecimal negative d := by
  cases h with
  | @inPlace _ d' hnum heq => exact ⟨d', hnum.spelled hs, heq negative⟩
  | @scientific m digits sign hm hsgn hne hd =>
    refine ⟨_, .mk hs hm (.some (.inl rfl) hsgn hne hd), ?_⟩
    have hlen := d.length_digits_pos
    have hexponent : Number.signed (decide (d.leading < 0)) (count d.leading.natAbs) - (d.digits.length - 1 : Nat) =
        d.exponent := by
      rw [hcount, Number.signed]
      unfold leading
      split <;> rename_i h <;> simp only [decide_eq_true_eq] at h <;> omega
    rw [hexponent]

/-- The leading digit of a decimal that rounds to a nonzero finite number is neither far before nor far behind the dot. -/
theorem natAbs_leading_lt {d : Decimal} {m : Magnitude} (hm : m.units ≠ 0)
    (h : Number.ofDecimal false d = .finite false m) : d.leading.natAbs < 100000 := by
  have hpos : 0 < d.coefficient := by
    rw [Nat.pos_iff_ne_zero]
    intro hc
    rw [Number.ofDecimal, if_pos hc] at h
    cases h
    exact hm rfl
  have hlen := d.length_digits_pos
  have hhigh : ¬ 309 ≤ d.exponent + (d.digits.length - 1 : Nat) := by
    intro he
    rw [Number.ofDecimal_infinite (Text.pow_length_ofNat_le hpos) he] at h
    cases h
  have hlow : ¬ d.exponent + d.digits.length + 324 ≤ 0 := by
    intro he
    rw [Number.ofDecimal_zero (digits_ofNat d.coefficient).lt he] at h
    cases h
    exact hm rfl
  unfold leading
  omega

end Decimal

namespace Number

theorem ofDecimal_signed {d : Decimal} {m : Magnitude} (h : ofDecimal false d = finite false m) (negative : Bool) :
    ofDecimal negative d = finite negative m := by
  rw [ofDecimal_eq, ofQuotient, ofUnits] at h ⊢
  split at h
  · rename_i hgrid
    rw [dif_pos hgrid]
    cases h
    rfl
  · cases h

theorem written_writeMagnitude (style : NumeralStyle) (m : Magnitude) :
    Decimal.Written m.shortest (writeMagnitude style m) := by
  unfold writeMagnitude
  dsimp only
  split
  · exact m.shortest.written_positional
  · exact m.shortest.written_scientific _

theorem write_finite (style : NumeralStyle) (negative : Bool) {m : Magnitude} (hm : m.units ≠ 0) :
    ∃ s, Sign s negative ∧ (finite negative m).write style = s ++ writeMagnitude style m := by
  cases negative with
  | false => exact ⟨[], .none, rfl⟩
  | true => exact ⟨[Byte.minus], .minus, by simp [write, hm]⟩

end Number

namespace Value

/-- A nonzero finite number is shown as a sign and a text of its shortest decimal. -/
theorem exists_written (negative : Bool) {m : Magnitude} (hm : m.units ≠ 0) :
    ∃ s t, Sign s negative ∧ Decimal.Written m.shortest t ∧ numberText (.finite negative m) = s ++ t := by
  rw [numberText, if_neg hm]
  split
  · obtain ⟨s, hs, heq⟩ := Number.write_finite .general negative hm
    obtain ⟨t, htrim, ht⟩ := (Number.written_writeMagnitude .general m).trimExponent hs
    exact ⟨s, t, hs, ht, heq ▸ htrim⟩
  · obtain ⟨s, hs, heq⟩ := Number.write_finite .inPlace negative hm
    exact ⟨s, _, hs, Number.written_writeMagnitude _ m, heq⟩

/-- The text of a number denotes it, zero without its sign. -/
theorem denotes_numberText {x : Number} (h : x ≠ .nan) :
    Number.Denotes leadingFive (numberText x) (if x.isZero then .zero false else x) := by
  cases x with
  | nan => exact absurd rfl h
  | infinite negative =>
    cases negative with
    | false => exact .infinity .none
    | true => exact .infinity .minus
  | finite negative m =>
    by_cases hm : m.units = 0
    · have hzero : (Number.finite negative m).isZero = true := beq_iff_eq.2 hm
      have hspelled : Decimal.Spelled leadingFive ([] ++ utf8 "0") false ⟨0, 0⟩ :=
        Numeral.spelled .none (.whole (by decide) (List.forall_mem_singleton.2 rfl))
      rw [numberText, if_pos hm, if_pos hzero]
      exact .decimal hspelled (Number.rounds_ofDecimal_iff.2 rfl)
    · have hzero : ¬ (Number.finite negative m).isZero = true := fun hz => hm (beq_iff_eq.1 hz)
      obtain ⟨s, t, hs, hwritten, heq⟩ := exists_written negative hm
      have hcount := leadingFive_of_lt (Decimal.natAbs_leading_lt hm m.ofDecimal_shortest)
      obtain ⟨d, hspelled, hround⟩ := hwritten.spelled hs hcount
      rw [heq, if_neg hzero]
      refine .decimal hspelled (Number.rounds_ofDecimal_iff.2 ?_)
      rw [hround, Number.ofDecimal_signed m.ofDecimal_shortest]

end Value

namespace Number

theorem eq_of_rank_eq {x y : Number} (hx : x ≠ nan) (h : x.rank = y.rank) : x.eq y = true := by
  rw [Number.eq, ← h]
  cases x with
  | nan => exact absurd rfl hx
  | infinite negative => exact beq_self_eq_true _
  | finite negative m => exact beq_self_eq_true _

theorem rank_of_isZero {x : Number} (h : x.isZero = true) : x.rank = (zero false).rank := by
  cases x with
  | nan => cases h
  | infinite negative => cases h
  | finite negative m =>
    have hm : m.units = 0 := beq_iff_eq.1 h
    rw [rank, hm]
    cases negative <;> rfl

/-- A number that is shown is read back, zero without its sign. So every number except not-a-number equals its text. -/
theorem ofText_numberText (x : Number) (h : x ≠ nan) :
    ofText (Value.numberText x) = (if x.isZero then zero false else x) ∧
    ∀ (e : Expr) (scope : Scope), e.eval scope = (some (.number x), scope) →
      (Expr.comparison e (utf8 "==") (.binary e (utf8 "+") (.string []))).eval scope = (some (.boolean true), scope) := by
  have hread := (Value.denotes_numberText h).ofText_eq
  refine ⟨hread, fun e scope he => ?_⟩
  have hjoin : Value.binary (utf8 "+") (.number x) (.string []) = .string (Value.numberText x) :=
    congrArg Value.string (List.append_nil _)
  have hequal : x.eq (ofText (Value.numberText x)) = true := by
    rw [hread]
    refine eq_of_rank_eq h ?_
    split
    · exact rank_of_isZero ‹_›
    · rfl
  have hbinary : (Expr.binary e (utf8 "+") (.string [])).eval scope = (some (.string (Value.numberText x)), scope) := by
    rw [Expr.eval, Run.bind_of_some he, ← hjoin]
    rfl
  rw [Expr.eval, Run.bind_of_some he, Run.bind_of_some hbinary]
  exact congrArg (fun b => (some (Value.boolean b), scope)) hequal

/-- The negative number next to zero is shown with a sign and an exponent. -/
theorem ofText_numberText_least :
    let x := ofDecimal true ⟨5, -324⟩
    let n : Expr := .identifier (utf8 "n")
    Value.numberText x = utf8 "-5e-324" ∧ ofText (Value.numberText x) = x ∧
    (Expr.comparison n (utf8 "==") (.binary n (utf8 "+") (.string []))).eval ⟨[(utf8 "n", .number x)]⟩ =
      (some (.boolean true), ⟨[(utf8 "n", .number x)]⟩) := by
  intro x n
  have hne : x ≠ nan := by decide +kernel
  have hzero : ¬ x.isZero = true := by decide +kernel
  obtain ⟨hread, hequal⟩ := ofText_numberText x hne
  rw [if_neg hzero] at hread
  exact ⟨by decide +kernel, hread, hequal n _ rfl⟩

end Number

end Jolt
