import Jolt.Proofs.Token.Classes

/-!
# The texts of tokens

What the kind of a token says about its text, if the token comes from a source (`Scans.genuine`): names are words, number
tokens stand for finite numbers, strings that are closed hold no quote, and all other kinds but unknown bytes have texts of
their own. And no `>` comes after a `<` that compares (`Scans.staysOpen`).
-/

namespace Jolt

/-! ## Numbers without a sign -/

namespace Number

/-- A number that no sign was written for. -/
def IsUnsigned (x : Number) : Prop :=
  x = infinite false ∨ ∃ m, x = finite false m

theorem isUnsigned_ofQuotient (num den : Nat) : (ofQuotient false num den).IsUnsigned := by
  unfold ofQuotient ofUnits
  split
  · exact .inr ⟨_, rfl⟩
  · exact .inl rfl

theorem isUnsigned_ofDecimal (d : Decimal) : (ofDecimal false d).IsUnsigned := by
  rw [ofDecimal_eq]
  exact isUnsigned_ofQuotient _ _

theorem isUnsigned_ofBinary (c : Nat) (e : Int) : (ofBinary false c e).IsUnsigned := by
  unfold ofBinary
  split
  · exact .inr ⟨_, rfl⟩
  split
  · exact .inl rfl
  split
  · exact .inr ⟨_, rfl⟩
  · exact isUnsigned_ofQuotient _ _

theorem isUnsigned_readNumeral? {t : Text} {x : Number} (h : Literal.readNumeral? false t = some x) : x.IsUnsigned := by
  unfold Literal.readNumeral? at h
  dsimp only at h
  split at h
  · split at h
    · obtain ⟨digits, -, hx⟩ := Option.bind_eq_some_iff.1 h
      unfold Literal.readHex? at hx
      dsimp only at hx
      split at hx
      all_goals
        split at hx
        · cases hx
        · obtain ⟨exponent, -, hx⟩ := Option.bind_eq_some_iff.1 hx
          cases hx
          exact isUnsigned_ofBinary _ _
    · cases h
  · split at h
    · obtain ⟨d, -, rfl⟩ := Option.map_eq_some_iff.1 h
      exact isUnsigned_ofDecimal d
    · cases h

/-- A literal that starts with a digit is finite and not negative. -/
theorem finite_of_ofLiteral? {c : UInt8} {r : Text} {x : Number} (hc : Text.isDigit c = true)
    (h : ofLiteral? (c :: r) = some x) : ∃ m, x = finite false m := by
  rw [ofLiteral?_of_isDigit r hc, Option.filter_eq_some_iff] at h
  rcases isUnsigned_readNumeral? h.1 with rfl | hm
  · cases h.2
  · exact hm

end Number

/-! ## Genuine tokens -/

namespace Token

/-- The texts that tokens of a kind have. -/
def Kind.Allows : Kind → Text → Prop
  | .identifier, t => t ≠ [] ∧ ∀ b ∈ t, Text.isLetter b = true
  | .number, t => ∀ x, Number.ofLiteral? t = some x → ∃ m, x = .finite false m
  | .string, t => ∀ v, Grammar.unquote? t = some v → t = utf8 "\"" ++ v ++ utf8 "\"" ∧ Byte.quote ∉ v
  | .comment, t => t.IsComment
  | .unknown, _ | .openParen, _ => True
  | kind, t => t ∈ strays ∧ kindOf t = kind

/-- The token has a text of its kind. -/
def Genuine (t : Token) : Prop :=
  t.kind.Allows t.text

theorem Genuine.allows {t : Token} {kind : Kind} (h : t.Genuine) (hk : t.kind = kind) : kind.Allows t.text :=
  hk ▸ h

theorem allows_single {c : UInt8} {kind : Kind} (h : single? c = some kind) : kind.Allows [c] := by
  unfold single? at h
  repeat' split at h
  case isFalse.isFalse.isTrue =>
    cases h
    trivial
  case isFalse.isFalse.isFalse.isFalse.isFalse.isFalse.isFalse => cases h
  all_goals
    cases h
    rename_i hc
    subst hc
    exact ⟨by decide, by decide⟩

/-- A text that a kind takes is one that it allows. -/
theorem Kind.Takes.allows {kind : Kind} {t rest : Text} (h : kind.Takes t rest) (ht : t ≠ []) : kind.Allows t := by
  cases kind with
  | comment => exact h
  | number =>
    obtain ⟨c, r, rfl⟩ := List.exists_cons_of_ne_nil ht
    exact fun x hx => Number.finite_of_ofLiteral? h.isDigit_head hx
  | string =>
    obtain ⟨w, hw, rfl | ⟨rfl, -⟩⟩ := h
    · intro v hv
      have htext : Byte.quote :: (w ++ [Byte.quote]) = utf8 "\"" ++ w ++ utf8 "\"" := rfl
      rw [htext, Grammar.unquote?_quoted] at hv
      obtain rfl := Option.some.inj hv
      exact ⟨htext, hw⟩
    · exact fun v hv => absurd (Grammar.quote_mem_of_unquote? hv) hw
  | identifier => exact ⟨h.1, h.2.1⟩
  | output | type | condition =>
    rw [h.1]
    exact ⟨by decide, by decide⟩
  | binaryOperator =>
    have hall : ∀ o ∈ binaryOperators, o ∈ strays ∧ kindOf o = .binaryOperator := by decide
    exact hall t h.1
  | equals =>
    have hall : ∀ o ∈ assignmentOperators, o ∈ strays ∧ kindOf o = .equals := by decide
    exact hall t h.1
  | comparison =>
    have hall : ∀ o ∈ comparisonOperators, o ∈ strays ∧ kindOf o = .comparison := by decide
    exact hall t h.1
  | unknown => trivial
  | endOfInput => exact absurd h.1 ht
  | endOfLine | openParen | closedParen | openBlock | closeBlock | question | colon | other =>
    obtain ⟨b, rfl, hb⟩ := h
    exact allows_single hb

section Scans

variable {p : Position} {t : Text} {ts : List Token} (h : Scans p t ts)

include h

/-- The tokens of a source are genuine. -/
theorem Scans.genuine : ∀ u ∈ ts, u.Genuine := by
  induction h with
  | nil => simp
  | blank _ _ ih => exact ih
  | token hb hc _ ih => exact List.forall_mem_cons.2 ⟨((classify_eq_iff hb).1 hc).allows (by simp), ih⟩

theorem Scans.text_ne_nil : ∀ u ∈ ts, u.text ≠ [] := by
  induction h with
  | nil => simp
  | blank _ _ ih => exact ih
  | token _ _ _ ih => exact List.forall_mem_cons.2 ⟨by simp, ih⟩

theorem Scans.mem_text {u : Token} (hu : u ∈ ts) {b : UInt8} (hb : b ∈ u.text) : b ∈ t := by
  induction h with
  | nil => cases hu
  | blank _ _ ih => exact List.mem_cons_of_mem _ (ih hu)
  | @token p c r rest kind ts _ _ _ ih =>
    rw [← List.cons_append]
    rcases List.mem_cons.1 hu with rfl | hu
    · exact List.mem_append_left _ hb
    · exact List.mem_append_right _ (ih hu)

/-- In a source a `<` with a `>` behind it is no comparison. -/
theorem Scans.staysOpen : StaysOpen ts := by
  induction h with
  | nil => exact List.Pairwise.nil
  | blank _ _ ih => exact ih
  | @token p c r rest kind ts _ hc hs ih =>
    refine List.pairwise_cons.2 ⟨fun u hu hless hgt => ?_, ih⟩
    simp only [isLess, Bool.and_eq_true, decide_eq_true_eq] at hless
    obtain ⟨rfl, htext⟩ := hless
    obtain ⟨rfl, rfl⟩ : c = Byte.less ∧ r = [] := by simpa using htext
    rw [classify_less, List.nil_append] at hc
    split at hc
    · cases hc
    · rename_i hnone
      exact through?_eq_none.1 hnone (hs.mem_text hu hgt)

end Scans

end Token

end Jolt
