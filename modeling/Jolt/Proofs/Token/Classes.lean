import Jolt.Proofs.Token.Spell

/-!
# The classes of tokens

`Kind.Takes` says of each kind which texts are tokens of it and what may come behind them. It describes `Token.classify`
completely: a text is the token that a source starts with exactly if its kind takes it (`classify_eq_iff`), although the
kinds share first bytes and the classifier looks at them one after the other.

Main statement (`scan_takes`): every token of a source is of its class and is not cut short.
-/

namespace Jolt.Token

/-- The bytes that a token of a known kind can start with, and blanks. -/
def isKnown (b : UInt8) : Bool :=
  Text.isBlank b || Text.isLetter b || Text.isDigit b || (utf8 "\"<>?:+-*/=()\x7b\x7d;").contains b

/-- The text is a token of the kind where `rest` comes behind it. -/
def Kind.Takes : Kind → Text → Text → Prop
  | .comment, t, _ => t.IsComment
  | .number, t, rest =>
    (∀ b ∈ rest.head?, Text.isDigit b = false) ∧ ∃ whole, whole ≠ [] ∧ (∀ b ∈ whole, Text.isDigit b = true) ∧
      (t = whole ∧ rest.head? ≠ some Byte.dot ∨
        ∃ fraction, (∀ b ∈ fraction, Text.isDigit b = true) ∧ t = whole ++ Byte.dot :: fraction)
  | .string, t, rest =>
    ∃ w, Byte.quote ∉ w ∧ (t = Byte.quote :: (w ++ [Byte.quote]) ∨ t = Byte.quote :: w ∧ rest = [])
  | .identifier, t, rest =>
    t ≠ [] ∧ (∀ b ∈ t, Text.isLetter b = true) ∧ (∀ b ∈ rest.head?, Text.isLetter b = false) ∧
      ¬ (t ∈ keywords ∧ rest.head? = some Byte.space)
  | .output, t, rest => t = utf8 "out" ∧ rest.head? = some Byte.space
  | .type, t, rest => t = utf8 "type" ∧ rest.head? = some Byte.space
  | .condition, t, rest => t = utf8 "if" ∧ rest.head? = some Byte.space
  | .binaryOperator, t, rest => t ∈ binaryOperators ∧ rest.head? ≠ some Byte.equals
  | .equals, t, rest => t ∈ assignmentOperators ∧ (t = utf8 "=" → rest.head? ≠ some Byte.equals)
  | .comparison, t, rest => t ∈ comparisonOperators ∧ (t = utf8 "<" → Byte.greater ∉ rest)
  | .unknown, t, _ => ∃ b, t = [b] ∧ isKnown b = false
  | .endOfInput, t, rest => t = [] ∧ rest = []
  | kind, t, _ => ∃ b, t = [b] ∧ single? b = some kind

/-- A text is a run of bytes of a class and what comes behind the run. -/
theorem exists_run (p : UInt8 → Bool) (t : Text) :
    ∃ w d, t = w ++ d ∧ (∀ b ∈ w, p b = true) ∧ ∀ b ∈ d.head?, p b = false := by
  refine ⟨t.takeWhile p, t.dropWhile p, List.takeWhile_append_dropWhile.symm, fun b hb => List.mem_takeWhile_imp hb, ?_⟩
  intro b hb
  have h := List.head?_dropWhile_not p t
  rw [hb] at h
  exact h

/-! ## Numbers -/

section Number

variable {c : UInt8} {r rest : Text}

theorem Kind.Takes.isDigit_head (h : Kind.number.Takes (c :: r) rest) : Text.isDigit c = true := by
  obtain ⟨-, whole, hne, hwhole, hr⟩ := h
  obtain ⟨c', w, rfl⟩ := List.exists_cons_of_ne_nil hne
  have hc' := (List.forall_mem_cons.1 hwhole).1
  rcases hr with ⟨hr, -⟩ | ⟨f, -, hr⟩
  all_goals
    rw [(List.cons.inj hr).1]
    exact hc'

/-- A number is taken as far as it goes. -/
theorem numberTail_eq_length_iff (hc : Text.isDigit c = true) :
    numberTail (r ++ rest) = r.length ↔ Kind.number.Takes (c :: r) rest := by
  constructor
  · intro h
    obtain ⟨w, d, hs, hw, hd⟩ := exists_run Text.isDigit (r ++ rest)
    have hwhole : ∀ b ∈ c :: w, Text.isDigit b = true := List.forall_mem_cons.2 ⟨hc, hw⟩
    rw [hs, numberTail_digits hw hd] at h
    split at h
    · rename_i hdot
      obtain ⟨e, rfl⟩ := List.head?_eq_some_iff.1 (startsWith_iff.1 hdot)
      obtain ⟨f, g, rfl, hf, hg⟩ := exists_run Text.isDigit e
      rw [List.drop_one, List.tail_cons, (Text.takeWhile_digits hf hg).1] at h
      have hcut : r ++ rest = (w ++ Byte.dot :: f) ++ g := by simp [hs]
      obtain ⟨rfl, rfl⟩ := List.append_inj hcut (by simp; omega)
      exact ⟨hg, c :: w, by simp, hwhole, .inr ⟨f, hf, rfl⟩⟩
    · rename_i hdot
      obtain ⟨rfl, rfl⟩ := List.append_inj hs h.symm
      exact ⟨hd, c :: r, by simp, hwhole, .inl ⟨rfl, mt startsWith_iff.2 hdot⟩⟩
  · rintro ⟨hrest, whole, hne, hwhole, hr⟩
    obtain ⟨c', w, rfl⟩ := List.exists_cons_of_ne_nil hne
    have hw := (List.forall_mem_cons.1 hwhole).2
    rcases hr with ⟨hr, hdot⟩ | ⟨f, hf, hr⟩
    · obtain ⟨rfl, rfl⟩ := List.cons.inj hr
      rw [numberTail_digits hw hrest, if_neg (mt startsWith_iff.1 hdot)]
    · obtain ⟨rfl, rfl⟩ : c = c' ∧ r = w ++ Byte.dot :: f := List.cons.inj hr
      rw [List.append_assoc, List.cons_append, numberTail_digits hw (by simp; decide), if_pos (by simp [startsWith]),
        List.drop_one, List.tail_cons, (Text.takeWhile_digits hf hrest).1, List.length_append, List.length_cons]
      omega

end Number

/-! ## Words -/

section Word

variable {c : UInt8} {r rest : Text} {kind : Kind}

theorem keyword?_eq_none {word : Text} : keyword? word = none ↔ word ∉ keywords := by
  unfold keyword?
  repeat' split
  all_goals simp_all [keywords]

theorem length_takeWhile_eq_iff {p : UInt8 → Bool} :
    ((r ++ rest).takeWhile p).length = r.length ↔ (∀ b ∈ r, p b = true) ∧ ∀ b ∈ rest.head?, p b = false := by
  induction r with
  | nil => cases rest <;> simp [List.takeWhile_cons]
  | cons c r ih => by_cases hc : p c = true <;> simp [hc, ih]

theorem takes_keyword {word : Text} (hk : keyword? word = some kind) (hs : rest.head? = some Byte.space) :
    kind.Takes word rest := by
  unfold keyword? at hk
  repeat' split at hk
  case isFalse.isFalse.isFalse => cases hk
  all_goals
    cases hk
    exact ⟨‹_›, hs⟩

/-- A word is taken as far as it goes, and its kind takes it. -/
theorem takes_word (hc : Text.isLetter c = true) (h : (classifyWord c (r ++ rest)).2 = r.length) :
    (classifyWord c (r ++ rest)).1.Takes (c :: r) rest := by
  have hlength : ((r ++ rest).takeWhile Text.isLetter).length = r.length := by
    rw [← h]
    unfold classifyWord
    dsimp only
    split <;> rfl
  obtain ⟨hr, hrest⟩ := length_takeWhile_eq_iff.1 hlength
  have hletters : ∀ b ∈ c :: r, Text.isLetter b = true := List.forall_mem_cons.2 ⟨hc, hr⟩
  rw [classifyWord_letters hr hrest]
  dsimp only
  split
  · rename_i hs
    cases hk : keyword? (c :: r) with
    | none => exact ⟨by simp, hletters, hrest, fun h => keyword?_eq_none.1 hk h.1⟩
    | some kind => exact takes_keyword hk (startsWith_iff.1 hs)
  · rename_i hs
    exact ⟨by simp, hletters, hrest, fun h => hs (startsWith_iff.2 h.2)⟩

theorem classify_identifier (h : Kind.identifier.Takes (c :: r) rest) :
    classify c (r ++ rest) = (.identifier, r.length) := by
  obtain ⟨-, hletters, hrest, hk⟩ := h
  obtain ⟨hc, hr⟩ := List.forall_mem_cons.1 hletters
  rw [classify_letter _ hc, classifyWord_letters hr hrest]
  split
  · rename_i hs
    rw [keyword?_eq_none.2 fun hword => hk ⟨hword, startsWith_iff.1 hs⟩, Option.getD_none]
  · rfl

end Word

/-! ## All classes -/

section Classify

variable {c : UInt8} {r rest : Text} {kind : Kind} {n : Nat}

theorem eq_of_startsWith {b : UInt8} (h : startsWith b (r ++ rest) = true) (hr : r.length = 1) : r = [b] := by
  obtain ⟨d, rfl⟩ := List.length_eq_one_iff.1 hr
  simpa [startsWith] using h

theorem takes_single (h : single? c = some kind) : kind.Takes [c] rest := by
  have hkind := h
  unfold single? at hkind
  repeat' split at hkind
  case isFalse.isFalse.isFalse.isFalse.isFalse.isFalse.isFalse => cases hkind
  all_goals
    cases hkind
    exact ⟨c, rfl, h⟩

theorem exists_arithmetic {t : Text} (h : t ∈ binaryOperators) : ∃ b, isArithmetic b ∧ t = [b] := by
  simp only [binaryOperators, List.mem_cons, List.not_mem_nil, or_false] at h
  rcases h with rfl | rfl | rfl | rfl
  · exact ⟨Byte.plus, .inl rfl, rfl⟩
  · exact ⟨Byte.minus, .inr (.inl rfl), rfl⟩
  · exact ⟨Byte.star, .inr (.inr (.inl rfl)), rfl⟩
  · exact ⟨Byte.slash, .inr (.inr (.inr rfl)), rfl⟩

theorem exists_compound {t : Text} (h : t ∈ assignmentOperators) :
    t = [Byte.equals] ∨ ∃ b, isArithmetic b ∧ t = [b, Byte.equals] := by
  simp only [assignmentOperators, List.mem_cons, List.not_mem_nil, or_false] at h
  rcases h with rfl | rfl | rfl | rfl | rfl
  · exact .inl rfl
  · exact .inr ⟨Byte.plus, .inl rfl, rfl⟩
  · exact .inr ⟨Byte.minus, .inr (.inl rfl), rfl⟩
  · exact .inr ⟨Byte.star, .inr (.inr (.inl rfl)), rfl⟩
  · exact .inr ⟨Byte.slash, .inr (.inr (.inr rfl)), rfl⟩

theorem single?_eq_none_iff : single? c = none ↔ c ≠ Byte.question ∧ c ≠ Byte.colon ∧ c ≠ Byte.openParen ∧
    c ≠ Byte.closedParen ∧ c ≠ Byte.openBrace ∧ c ≠ Byte.closeBrace ∧ c ≠ Byte.semicolon := by
  unfold single?
  repeat' split
  all_goals simp_all

theorem isKnown_eq_false_iff (hc : Text.isBlank c = false) :
    isKnown c = false ↔ Text.isDigit c = false ∧ Text.isLetter c = false ∧ c ≠ Byte.less ∧ c ≠ Byte.quote ∧
      single? c = none ∧ ¬ isArithmetic c ∧ c ≠ Byte.greater ∧ c ≠ Byte.equals := by
  have hbytes : utf8 "\"<>?:+-*/=()\x7b\x7d;" = [Byte.quote, Byte.less, Byte.greater, Byte.question, Byte.colon, Byte.plus,
    Byte.minus, Byte.star, Byte.slash, Byte.equals, Byte.openParen, Byte.closedParen, Byte.openBrace, Byte.closeBrace,
    Byte.semicolon] := rfl
  simp only [isKnown, hbytes, hc, single?_eq_none_iff, isArithmetic, List.contains_eq_mem, Bool.or_eq_false_iff,
    decide_eq_false_iff_not, List.mem_cons, List.not_mem_nil, not_or, not_false_eq_true]
  grind

/-- The rules of the classifier leave it no choice. -/
theorem Classified.classify_eq (h : Classified c r kind n) : classify c r = (kind, n) := by
  cases h with
  | number hd => rw [classify, if_pos hd]
  | word hl => exact classify_letter r hl
  | comment hl ht | less hl ht => rw [hl, classify_less, ht]
  | string hq => rw [hq, classify_quote]
  | single hs =>
    unfold single? at hs
    repeat' split at hs
    case isFalse.isFalse.isFalse.isFalse.isFalse.isFalse.isFalse => cases hs
    all_goals
      cases hs
      rename_i hc
      subst hc
      rfl
  | compound ha he | arithmetic ha he =>
    rcases ha with rfl | rfl | rfl | rfl <;> unfold classify <;> rw [he] <;> rfl
  | greater hg => rw [hg]; rfl
  | equality hq he | assign hq he =>
    subst hq
    unfold classify
    rw [he]
    rfl
  | unknown hd hl hless hquote hs ha hg hq =>
    obtain ⟨h₁, h₂, h₃, h₄, h₅, h₆, h₇⟩ := single?_eq_none_iff.1 hs
    have ha' : ¬ (c = Byte.plus ∨ c = Byte.minus ∨ c = Byte.star ∨ c = Byte.slash) := ha
    simp only [classify, hd, hl, if_neg hless, if_neg hquote, if_neg h₁, if_neg h₂, if_neg ha', if_neg hg, if_neg hq,
      if_neg h₃, if_neg h₄, if_neg h₅, if_neg h₆, if_neg h₇, Bool.false_eq_true, if_false]

/-- What the classifier takes is of the class. -/
theorem Classified.takes (h : Classified c (r ++ rest) kind r.length) (hc : Text.isBlank c = false) :
    kind.Takes (c :: r) rest := by
  generalize hn : r.length = n at h
  cases h with
  | number hd => exact (numberTail_eq_length_iff hd).1 hn.symm
  | word hl => exact takes_word hl hn.symm
  | comment hl ht =>
    obtain ⟨u, rfl, hu⟩ := through?_eq_length (hn ▸ ht)
    exact ⟨u, by rw [hl], hu⟩
  | less hl ht =>
    obtain rfl := List.eq_nil_of_length_eq_zero hn
    subst hl
    exact ⟨by decide, fun _ => through?_eq_none.1 ht⟩
  | string hq =>
    subst hq
    cases ht : through? Byte.quote (r ++ rest) with
    | none =>
      have hnone : Byte.quote ∉ r ++ rest := through?_eq_none.1 ht
      rw [ht, Option.getD_none, List.length_append] at hn
      have hrest : rest = [] := List.eq_nil_of_length_eq_zero (by omega)
      exact ⟨r, fun hmem => hnone (List.mem_append_left rest hmem), .inr ⟨rfl, hrest⟩⟩
    | some n =>
      rw [ht, Option.getD_some] at hn
      obtain ⟨u, rfl, hu⟩ := through?_eq_length (hn ▸ ht)
      exact ⟨u, hu, .inl rfl⟩
  | single hs =>
    obtain rfl := List.eq_nil_of_length_eq_zero hn
    exact takes_single hs
  | compound ha he =>
    obtain rfl := eq_of_startsWith he hn
    rcases ha with rfl | rfl | rfl | rfl <;> exact ⟨by decide, fun h => absurd h (by decide)⟩
  | arithmetic ha he =>
    obtain rfl := List.eq_nil_of_length_eq_zero hn
    have hrest : rest.head? ≠ some Byte.equals := by simpa [← startsWith_iff] using he
    rcases ha with rfl | rfl | rfl | rfl <;> exact ⟨by decide, hrest⟩
  | greater hg =>
    obtain rfl := List.eq_nil_of_length_eq_zero hn
    subst hg
    exact ⟨by decide, fun h => absurd h (by decide)⟩
  | equality he hs =>
    obtain rfl := eq_of_startsWith hs hn
    subst he
    exact ⟨by decide, fun h => absurd h (by decide)⟩
  | assign he hs =>
    obtain rfl := List.eq_nil_of_length_eq_zero hn
    subst he
    exact ⟨by decide, fun _ => by simpa [← startsWith_iff] using hs⟩
  | unknown hd hl hless hquote hs ha hg hq =>
    obtain rfl := List.eq_nil_of_length_eq_zero hn
    exact ⟨c, rfl, (isKnown_eq_false_iff hc).2 ⟨hd, hl, hless, hquote, hs, ha, hg, hq⟩⟩

/-- What a class allows is what the classifier takes. -/
theorem classify_of_takes (h : kind.Takes (c :: r) rest) (hc : Text.isBlank c = false) :
    classify c (r ++ rest) = (kind, r.length) := by
  cases kind with
  | comment =>
    obtain ⟨w, hw, hgreater⟩ := h
    obtain ⟨rfl, rfl⟩ : c = Byte.less ∧ r = w ++ [Byte.greater] := List.cons.inj hw
    rw [List.append_assoc, List.singleton_append, List.length_append, List.length_singleton]
    exact Classified.classify_eq (.comment rfl (through?_append rest hgreater))
  | number =>
    have hd := h.isDigit_head
    rw [← (numberTail_eq_length_iff hd).2 h]
    exact Classified.classify_eq (.number hd)
  | string =>
    obtain ⟨w, hw, ht | ⟨ht, rfl⟩⟩ := h
    · obtain ⟨rfl, rfl⟩ : c = Byte.quote ∧ r = w ++ [Byte.quote] := List.cons.inj ht
      rw [classify_quote, List.append_assoc, List.singleton_append, through?_append rest hw, Option.getD_some,
        List.length_append, List.length_singleton]
    · obtain ⟨rfl, rfl⟩ := List.cons.inj ht
      rw [classify_quote, List.append_nil, through?_eq_none.2 hw, Option.getD_none]
  | identifier => exact classify_identifier h
  | output | type | condition => exact classify_keyword (by rw [h.1]; rfl) h.2
  | binaryOperator =>
    obtain ⟨ho, hrest⟩ := h
    obtain ⟨b, hb, ht⟩ := exists_arithmetic ho
    obtain ⟨rfl, rfl⟩ := List.cons.inj ht
    exact Classified.classify_eq (.arithmetic hb (by simpa [← startsWith_iff] using hrest))
  | equals =>
    obtain ⟨ho, hrest⟩ := h
    rcases exists_compound ho with ht | ⟨b, hb, ht⟩
    · obtain ⟨rfl, rfl⟩ := List.cons.inj ht
      exact Classified.classify_eq (.assign rfl (by simpa [← startsWith_iff] using hrest rfl))
    · obtain ⟨rfl, rfl⟩ := List.cons.inj ht
      exact Classified.classify_eq (.compound hb (by simp [startsWith]))
  | comparison =>
    obtain ⟨ho, hrest⟩ := h
    simp only [comparisonOperators, List.mem_cons, List.not_mem_nil, or_false] at ho
    rcases ho with ht | ht | ht
    · obtain ⟨rfl, rfl⟩ : c = Byte.less ∧ r = [] := List.cons.inj ht
      exact Classified.classify_eq (.less rfl (through?_eq_none.2 (hrest rfl)))
    · obtain ⟨rfl, rfl⟩ : c = Byte.greater ∧ r = [] := List.cons.inj ht
      exact Classified.classify_eq (.greater rfl)
    · obtain ⟨rfl, rfl⟩ : c = Byte.equals ∧ r = [Byte.equals] := List.cons.inj ht
      exact Classified.classify_eq (.equality rfl (by simp [startsWith]))
  | unknown =>
    obtain ⟨b, ht, hb⟩ := h
    obtain ⟨rfl, rfl⟩ := List.cons.inj ht
    obtain ⟨hd, hl, hless, hquote, hs, ha, hg, hq⟩ := (isKnown_eq_false_iff hc).1 hb
    exact Classified.classify_eq (.unknown hd hl hless hquote hs ha hg hq)
  | endOfInput => cases h.1
  | endOfLine | openParen | closedParen | openBlock | closeBlock | question | colon | other =>
    obtain ⟨b, ht, hb⟩ := h
    obtain ⟨rfl, rfl⟩ := List.cons.inj ht
    exact Classified.classify_eq (.single hb)

/-- **The classes describe the classifier.** -/
theorem classify_eq_iff (hc : Text.isBlank c = false) :
    classify c (r ++ rest) = (kind, r.length) ↔ kind.Takes (c :: r) rest := by
  refine ⟨fun h => ?_, fun h => classify_of_takes h hc⟩
  have hclassified := classified c (r ++ rest)
  rw [h] at hclassified
  exact hclassified.takes hc

theorem kind_eq_unknown_iff (h : classify c (r ++ rest) = (kind, r.length)) (hc : Text.isBlank c = false) :
    kind = .unknown ↔ isKnown c = false := by
  constructor
  · rintro rfl
    obtain ⟨b, ht, hb⟩ := (classify_eq_iff hc).1 h
    rwa [(List.cons.inj ht).1]
  · intro hk
    have hunknown : classify c (r ++ rest) = (.unknown, 0) := (classify_eq_iff (r := []) hc).2 ⟨c, rfl, hk⟩
    exact congrArg Prod.fst (h.symm.trans hunknown)

end Classify

/-- **Every token is of its class.** Its text is at its offset, and its kind takes it where the rest of the source comes
behind it. It is unknown exactly if it starts with a byte that no other kind starts with; and behind a string without
closing quote there is only the end of the input. -/
theorem scan_takes {source : Text} {ts us : List Token} {t : Token} (h : scan source = ts ++ t :: us) :
    ∃ before rest, source = before ++ (t.text ++ rest) ∧ t.position.offset = before.length ∧
      t.kind.Takes t.text rest ∧ (t.kind = .unknown ↔ ∃ b ∈ t.text.head?, isKnown b = false) ∧
      (t.kind = .string → Byte.quote ∉ t.text.tail → rest = [] ∧ ∃ last, us = [last] ∧ last.kind = .endOfInput) := by
  rcases scan_eq_append h with ⟨rfl, rfl⟩ | ⟨more, rfl, hs⟩
  · exact ⟨source, [], by simp, by simp [Position.start], ⟨rfl, rfl⟩, by simp, by simp⟩
  · obtain ⟨before, c, r, rest, rfl, -, hc, ht, hclassify, hmore⟩ := hs.split
    have htext : t.text = c :: r := by rw [ht]
    have htakes : t.kind.Takes t.text rest := htext ▸ (classify_eq_iff hc).1 hclassify
    have hoffset : t.position.offset = before.length := by rw [ht]; simp [Position.start]
    have hunknown := kind_eq_unknown_iff hclassify hc
    refine ⟨before, rest, by simp [htext], hoffset, htakes, by simp [htext, hunknown], fun hstring hopen => ?_⟩
    rw [hstring] at htakes
    obtain ⟨w, -, hclosed | ⟨-, rfl⟩⟩ := htakes
    · exact absurd (by simp [hclosed]) hopen
    · cases hmore
      exact ⟨rfl, _, rfl, rfl⟩

/-- A number before a dot that it cannot take, and a string that runs to the end of the source. -/
theorem scan_takes_open :
    scan (utf8 "1.2.\"a ") =
        [⟨utf8 "1.2", .number, ⟨0, 1, 1⟩⟩, ⟨utf8 ".", .unknown, ⟨3, 1, 4⟩⟩] ++
          ⟨utf8 "\"a ", .string, ⟨4, 1, 5⟩⟩ :: [⟨[], .endOfInput, ⟨7, 1, 8⟩⟩] ∧
      ∃ before rest, utf8 "1.2.\"a " = before ++ (utf8 "\"a " ++ rest) ∧ 4 = before.length ∧
        Kind.string.Takes (utf8 "\"a ") rest ∧
        (Kind.string = .unknown ↔ ∃ b ∈ (utf8 "\"a ").head?, isKnown b = false) ∧
        (Kind.string = .string → Byte.quote ∉ (utf8 "\"a ").tail →
          rest = [] ∧ ∃ last : Token, [⟨[], .endOfInput, ⟨7, 1, 8⟩⟩] = [last] ∧ last.kind = .endOfInput) := by
  have h : scan (utf8 "1.2.\"a ") =
      [⟨utf8 "1.2", .number, ⟨0, 1, 1⟩⟩, ⟨utf8 ".", .unknown, ⟨3, 1, 4⟩⟩] ++
        ⟨utf8 "\"a ", .string, ⟨4, 1, 5⟩⟩ :: [⟨[], .endOfInput, ⟨7, 1, 8⟩⟩] := by decide +kernel
  exact ⟨h, scan_takes h⟩

end Jolt.Token
