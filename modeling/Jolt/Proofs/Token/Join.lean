import Jolt.Proofs.Token.Spans

/-!
# Tokens of joined texts

What `Token.classify` takes does not change when the text goes on with something that continues no token (`Apart`), with
three exceptions: a `<` that is not closed looks for a `>` in all that follows, a string without closing quote takes all
that follows, and a space behind it makes a keyword of a word. `classify_append` says so, and `Scans.join` that two
sources with a semicolon between them have the tokens of both.
-/

namespace Jolt.Token

/-- A text that starts with a byte which continues no token before it. -/
def Apart (u : Text) : Prop :=
  ∀ b ∈ u.head?, Text.isLetter b = false ∧ Text.isDigit b = false ∧ b ≠ Byte.dot ∧ b ≠ Byte.equals

theorem apart_cons {b : UInt8} {u : Text} :
    Apart (b :: u) ↔ Text.isLetter b = false ∧ Text.isDigit b = false ∧ b ≠ Byte.dot ∧ b ≠ Byte.equals := by
  simp [Apart]

theorem takeWhile_append_of_head {p : UInt8 → Bool} {r u : Text} (hu : ∀ b ∈ u.head?, p b = false) :
    (r ++ u).takeWhile p = r.takeWhile p := by
  induction r with
  | nil =>
    cases u with
    | nil => rfl
    | cons b u => simp [hu b rfl]
  | cons c r ih =>
    by_cases hc : p c = true
    · simp [hc, ih]
    · simp [hc]

theorem startsWith_append {b : UInt8} {r u : Text} (hu : ∀ c ∈ u.head?, c ≠ b) :
    startsWith b (r ++ u) = startsWith b r := by
  cases r with
  | cons c r => rfl
  | nil =>
    cases u with
    | nil => rfl
    | cons c u => simpa [startsWith] using hu c rfl

/-- The tail of a number as a condition on the byte behind its whole part. -/
theorem numberTail_eq (t : Text) : numberTail t =
    let whole := (t.takeWhile Text.isDigit).length
    if startsWith Byte.dot (t.drop whole) then whole + 1 + ((t.drop (whole + 1)).takeWhile Text.isDigit).length
    else whole := by
  unfold numberTail
  dsimp only
  cases hd : t.drop (t.takeWhile Text.isDigit).length with
  | nil => rfl
  | cons c d =>
    have hd' : t.drop ((t.takeWhile Text.isDigit).length + 1) = d := by
      rw [← List.drop_drop, hd]
      rfl
    by_cases hc : c = Byte.dot
    · subst hc
      rw [hd']
      rfl
    · have hs : startsWith Byte.dot (c :: d) = false := by simpa [startsWith] using hc
      rw [hs]
      split
      · simp_all
      · rfl

theorem numberTail_append {r u : Text} (hu : Apart u) : numberTail (r ++ u) = numberTail r := by
  have hw := length_takeWhile_le Text.isDigit r
  have hd : ∀ b ∈ u.head?, Text.isDigit b = false := fun b hb => (hu b hb).2.1
  rw [numberTail_eq, numberTail_eq]
  dsimp only
  rw [takeWhile_append_of_head hd, List.drop_append_of_le_length hw, startsWith_append fun b hb => (hu b hb).2.2.1]
  split
  · rename_i hs
    have hl := startsWith_length hs
    rw [List.length_drop] at hl
    rw [List.drop_append_of_le_length (by omega), takeWhile_append_of_head hd]
  · rfl

theorem through?_append_of_some {b : UInt8} {r : Text} {n : Nat} (u : Text) (h : through? b r = some n) :
    through? b (r ++ u) = some n := by
  obtain ⟨i, hi, rfl⟩ := Option.map_eq_some_iff.1 h
  unfold through?
  rw [List.idxOf?, List.findIdx?_append, ← List.idxOf?, hi]
  rfl

theorem through?_eq_none {b : UInt8} {t : Text} : through? b t = none ↔ b ∉ t := by
  unfold through?
  rw [Option.map_eq_none_iff, List.idxOf?_eq_none_iff]

theorem through?_append {b : UInt8} {u : Text} (v : Text) (hu : b ∉ u) : through? b (u ++ b :: v) = some (u.length + 1) := by
  unfold through?
  rw [List.idxOf?, List.findIdx?_append, ← List.idxOf?, List.idxOf?_eq_none_iff.2 hu]
  simp [List.idxOf?_cons]

theorem through?_eq_some {b : UInt8} {t : Text} {n : Nat} (h : through? b t = some n) :
    ∃ u v, t = u ++ b :: v ∧ b ∉ u ∧ n = u.length + 1 := by
  have hb : b ∈ t := by
    apply Decidable.byContradiction
    intro hb
    rw [through?_eq_none.2 hb] at h
    cases h
  obtain ⟨u, v, rfl, hu⟩ := List.eq_append_cons_of_mem hb
  rw [through?_append v hu, Option.some.injEq] at h
  exact ⟨u, v, rfl, hu, h.symm⟩

/-- A text that ends with the first byte `b` of a longer text. -/
theorem through?_eq_length {b : UInt8} {r rest : Text} (h : through? b (r ++ rest) = some r.length) :
    ∃ u, r = u ++ [b] ∧ b ∉ u := by
  obtain ⟨u, v, huv, hu, hn⟩ := through?_eq_some h
  refine ⟨u, ?_, hu⟩
  have hr : (r ++ rest).take r.length = r := List.take_left
  rw [← hr, hn, huv, List.append_cons]
  exact List.take_left' (by simp)

/-- A word is not changed by what follows it, unless a space makes it a keyword. -/
theorem classifyWord_append {c : UInt8} {r u : Text} (hu : Apart u)
    (hk : startsWith Byte.space u = true → keyword? (c :: r) = none) :
    classifyWord c (r ++ u) = classifyWord c r := by
  have hw := length_takeWhile_le Text.isLetter r
  unfold classifyWord
  dsimp only
  rw [takeWhile_append_of_head fun b hb => (hu b hb).1, List.drop_append_of_le_length hw]
  cases hd : r.drop (r.takeWhile Text.isLetter).length with
  | cons d ds => rfl
  | nil =>
    have hr : r.takeWhile Text.isLetter = r := by
      have hl : r.length ≤ (r.takeWhile Text.isLetter).length := List.drop_eq_nil_iff.1 hd
      exact (List.takeWhile_sublist _).eq_of_length (by omega)
    rw [hr, List.nil_append]
    cases hs : startsWith Byte.space u with
    | true => simp [hk hs]
    | false => simp [startsWith]

/-- What follows a token does not change it. -/
theorem classify_append {c : UInt8} {r u : Text} (hu : Apart u)
    (hk : startsWith Byte.space u = true → keyword? (c :: r) = none)
    (hl : c = Byte.less → Byte.greater ∉ r → Byte.greater ∉ u) (hq : c = Byte.quote → Byte.quote ∈ r) :
    classify c (r ++ u) = classify c r := by
  have he : startsWith Byte.equals (r ++ u) = startsWith Byte.equals r :=
    startsWith_append fun b hb => (hu b hb).2.2.2
  unfold classify
  rw [numberTail_append hu, classifyWord_append hu hk, he]
  by_cases hc : c = Byte.less
  · have ht : through? Byte.greater (r ++ u) = through? Byte.greater r := by
      cases h : through? Byte.greater r with
      | some n => exact through?_append_of_some u h
      | none =>
        have hr := through?_eq_none.1 h
        exact through?_eq_none.2 (by simp [hr, hl hc hr])
    have hne : c ≠ Byte.quote := by rw [hc]; decide
    rw [ht, if_neg hne, if_neg hne]
  · by_cases hc' : c = Byte.quote
    · obtain ⟨n, hn⟩ := Option.ne_none_iff_exists'.1 (mt through?_eq_none.1 (not_not_intro (hq hc')))
      rw [through?_append_of_some u hn, hn]
      simp only [if_neg hc, Option.getD_some]
    · simp only [if_neg hc, if_neg hc']

theorem classify_less (r : Text) : classify Byte.less r =
    match through? Byte.greater r with
    | some n => (.comment, n)
    | none => (.comparison, 0) := by
  unfold classify
  exact (if_neg (by decide)).trans ((if_neg (by decide)).trans (if_pos rfl))

theorem classify_quote (r : Text) : classify Byte.quote r = (.string, (through? Byte.quote r).getD r.length) := by
  unfold classify
  rw [if_neg (by decide), if_neg (by decide), if_neg (by decide), if_pos rfl]

theorem classify_semicolon (r : Text) : classify Byte.semicolon r = (.endOfLine, 0) := by
  unfold classify
  rfl

/-! ## Two sources -/

/-- The comparison `<`: a `<` that no `>` closes. -/
def isLess (t : Token) : Bool :=
  t.kind = .comparison && t.text = [Byte.less]

/-- A text whose strings are all closed can go on with one that continues no token. If there is a `<` that is not closed,
what follows must not close it. -/
theorem Scans.join {p : Position} {t u : Text} {ts us : List Token} (h : Scans p t ts) (hu : Apart u)
    (hs : startsWith Byte.space u = false) (hq : ∀ v ∈ ts, v.kind = .string → Byte.quote ∈ v.text.tail)
    (hl : (∀ v ∈ ts, v.isLess = false) ∨ Byte.greater ∉ u) (h' : Scans (p.advance t) u us) :
    Scans p (t ++ u) (ts ++ us) := by
  induction h with
  | nil p => exact h'
  | blank hb _ ih => exact .blank hb (ih hq hl h')
  | @token p c r rest kind ts hb hc _ ih =>
    have hrest : (p.advance (c :: r)).advance rest = p.advance (c :: (r ++ rest)) := by
      simp only [Position.advance, ← List.foldl_append, List.cons_append]
    have hc' : classify c (r ++ (rest ++ u)) = (kind, r.length) := by
      rw [← List.append_assoc, ← hc]
      refine classify_append hu (by simp [hs]) (fun hless hno => ?_) (fun hquote => ?_)
      · rcases hl with hl | hl
        · -- the first token is that `<`
          rw [hless, classify_less, through?_eq_none.2 hno] at hc
          simp only [Prod.mk.injEq] at hc
          obtain ⟨rfl, hr⟩ := hc
          have hr : r = [] := List.eq_nil_of_length_eq_zero hr.symm
          exact absurd (hl _ List.mem_cons_self) (by simp [isLess, hless, hr])
        · exact hl
      · rw [hquote, classify_quote, Prod.mk.injEq] at hc
        have := hq _ List.mem_cons_self hc.1.symm
        exact List.mem_append_left _ this
    have ht := ih (fun v hv => hq v (List.mem_cons_of_mem _ hv))
      (hl.imp_left fun hl v hv => hl v (List.mem_cons_of_mem _ hv)) (by rw [hrest]; exact h')
    have := Scans.token hb hc' ht
    simpa using this

end Jolt.Token
