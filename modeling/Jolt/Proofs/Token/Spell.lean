import Jolt.Proofs.Grammar.Lexemes
import Jolt.Proofs.Number.ReadBack
import Jolt.Proofs.Token.Join
import Jolt.Proofs.Tree.WellFormed
import Mathlib.Data.List.TakeWhile

/-!
# Texts that spell tokens

A text spells tokens if it is cut into them wherever it starts. A plain text is one token before everything that does not
continue a word or an operator; names, strings, comments, numbers, operators and marks are plain. Keywords are not: they
need a space behind them.
-/

namespace Jolt

open Grammar (lexeme)

/-- A token without a place. -/
def Layout.word (kind : Token.Kind) (text : Text) : Token :=
  ⟨text, kind, .nowhere⟩

open Layout (word)

namespace Token

/-- The kind of a text as a token with a space behind it. -/
def kindOf : Text → Kind
  | [] => .endOfInput
  | c :: r => (classify c (r ++ [Byte.space])).1

/-- No `>` comes after a `<` that compares. -/
def StaysOpen (ts : List Token) : Prop :=
  ts.Pairwise fun t u => t.isLess = true → Byte.greater ∉ u.text

instance : DecidablePred StaysOpen := fun ts =>
  inferInstanceAs (Decidable (ts.Pairwise _))

/-- Wherever it starts, the text is cut into tokens of these kinds and texts. -/
def Spells (t : Text) (ts : List Token) : Prop :=
  ∀ p, ∃ us, Scans p t us ∧ us.map lexeme = ts.map lexeme

theorem spells_nil : Spells [] [] := fun p => ⟨[], .nil p, rfl⟩

theorem Spells.blank {c : UInt8} {t : Text} {ts : List Token} (h : Spells t ts) (hc : Text.isBlank c = true) :
    Spells (c :: t) ts := by
  intro p
  obtain ⟨us, hs, hu⟩ := h (p.after c)
  exact ⟨us, .blank hc hs, hu⟩

theorem Spells.spaces {t : Text} {ts : List Token} (h : Spells t ts) (n : Nat) : Spells (Text.spaces n ++ t) ts := by
  induction n with
  | zero => exact h
  | succ n ih => exact ih.blank (by decide)

theorem Spells.token {c : UInt8} {r t : Text} {kind : Kind} {ts : List Token} (h : Spells t ts)
    (hb : Text.isBlank c = false) (hc : classify c (r ++ t) = (kind, r.length)) :
    Spells (c :: r ++ t) (word kind (c :: r) :: ts) := by
  intro p
  obtain ⟨us, hs, hu⟩ := h (p.advance (c :: r))
  exact ⟨_, .token hb hc hs, by simp [hu, lexeme, word]⟩

theorem Scans.mem_token {p : Position} {t : Text} {ts : List Token} (h : Scans p t ts) {b : UInt8} (hb : b ∈ t)
    (hn : Text.isBlank b = false) : ∃ u ∈ ts, b ∈ u.text := by
  induction h with
  | nil => cases hb
  | blank hc _ ih =>
    rcases List.mem_cons.1 hb with rfl | hb
    · rw [hc] at hn
      cases hn
    · exact ih hb
  | @token p c r rest kind ts _ _ _ ih =>
    rw [← List.cons_append, List.mem_append] at hb
    rcases hb with hb | hb
    · exact ⟨_, List.mem_cons_self, hb⟩
    · obtain ⟨u, hu, hbu⟩ := ih hb
      exact ⟨u, List.mem_cons_of_mem _ hu, hbu⟩

theorem Spells.mem_token {t : Text} {ts : List Token} (h : Spells t ts) {b : UInt8} (hb : b ∈ t)
    (hn : Text.isBlank b = false) : ∃ u ∈ ts, b ∈ u.text := by
  obtain ⟨us, hs, hu⟩ := h .start
  obtain ⟨u, hmem, hbu⟩ := hs.mem_token hb hn
  obtain ⟨v, hv, he⟩ := List.mem_map.1 (hu ▸ List.mem_map_of_mem hmem)
  have htext : v.text = u.text := congrArg Prod.snd he
  exact ⟨v, hv, htext ▸ hbu⟩

/-- A token before a text that does not continue it. -/
theorem Spells.word {c : UInt8} {r t : Text} {kind : Kind} {ts : List Token} (h : Spells t ts)
    (hb : Text.isBlank c = false) (hc : classify c r = (kind, r.length)) (ht : Apart t)
    (hk : startsWith Byte.space t = true → keyword? (c :: r) = none) (hq : c = Byte.quote → Byte.quote ∈ r)
    (ho : StaysOpen (Layout.word kind (c :: r) :: ts)) : Spells (c :: r ++ t) (Layout.word kind (c :: r) :: ts) := by
  refine h.token hb ?_
  rw [← hc]
  refine classify_append ht hk (fun hless hno hin => ?_) hq
  rw [hless, classify_less, through?_eq_none.2 hno, Prod.mk.injEq] at hc
  obtain ⟨u, hu, hgt⟩ := h.mem_token hin (by decide)
  have hr : r = [] := List.eq_nil_of_length_eq_zero hc.2.symm
  have hlt : (Layout.word kind (c :: r)).isLess = true := by simp [Layout.word, isLess, ← hc.1, hless, hr]
  exact (List.pairwise_cons.1 ho).1 u hu hlt hgt

theorem isDigit_of_isLetter {b : UInt8} (h : Text.isLetter b = true) : Text.isDigit b = false ∧ Text.isBlank b = false := by
  revert h
  simp only [Text.isLetter, Text.isDigit, Text.isBlank]
  grind

theorem classify_letter {c : UInt8} (r : Text) (h : Text.isLetter c = true) : classify c r = classifyWord c r := by
  unfold classify
  rw [if_neg (by simp [isDigit_of_isLetter h]), if_pos h]

theorem startsWith_iff {b : UInt8} {t : Text} : startsWith b t = true ↔ t.head? = some b := by
  cases t <;> simp [startsWith]

/-- A word that ends where its letters end. -/
theorem classifyWord_letters {c : UInt8} {r rest : Text} (hr : ∀ b ∈ r, Text.isLetter b = true)
    (hrest : ∀ b ∈ rest.head?, Text.isLetter b = false) : classifyWord c (r ++ rest) =
      (if startsWith Byte.space rest then (keyword? (c :: r)).getD .identifier else .identifier, r.length) := by
  have htail : (r ++ rest).takeWhile Text.isLetter = r := by
    rw [takeWhile_append_of_head hrest, List.takeWhile_eq_self_iff.2 hr]
  unfold classifyWord
  dsimp only
  rw [htail, List.drop_left]
  cases keyword? (c :: r) <;> simp

/-- A word that ends where the text ends is a name. -/
theorem classify_name {c : UInt8} {r : Text} (hl : ∀ b ∈ c :: r, Text.isLetter b = true) :
    classify c r = (.identifier, r.length) := by
  obtain ⟨hc, hr⟩ := List.forall_mem_cons.1 hl
  rw [classify_letter r hc, ← List.append_nil r, classifyWord_letters hr (by simp), List.append_nil]
  rfl

theorem isLetter_of_keyword? {word : Text} {kind : Kind} (h : keyword? word = some kind) :
    ∀ b ∈ word, Text.isLetter b = true := by
  rw [← List.all_eq_true]
  unfold keyword? at h
  repeat' split at h
  case isFalse.isFalse.isFalse => cases h
  all_goals
    rename_i hw
    subst hw
    decide

theorem classify_keyword {c : UInt8} {r rest : Text} {kind : Kind} (hk : keyword? (c :: r) = some kind)
    (hs : rest.head? = some Byte.space) : classify c (r ++ rest) = (kind, r.length) := by
  obtain ⟨hc, hr⟩ := List.forall_mem_cons.1 (isLetter_of_keyword? hk)
  have hrest : ∀ b ∈ rest.head?, Text.isLetter b = false := by
    rw [hs]
    rintro b ⟨⟩
    decide
  rw [classify_letter _ hc, classifyWord_letters hr hrest, if_pos (startsWith_iff.2 hs), hk, Option.getD_some]

/-- A text that is a token by itself and no keyword, whatever follows. -/
def Plain (kind : Kind) (text : Text) : Prop :=
  ∃ c r, text = c :: r ∧ Text.isBlank c = false ∧ classify c r = (kind, r.length) ∧ keyword? text = none ∧
    (c = Byte.quote → Byte.quote ∈ r)

theorem plain_name {name : Text} (hne : name ≠ []) (hl : ∀ b ∈ name, Text.isLetter b = true) (hk : keyword? name = none) :
    Plain .identifier name := by
  obtain ⟨c, r, rfl⟩ := List.exists_cons_of_ne_nil hne
  have hc := hl c List.mem_cons_self
  exact ⟨c, r, rfl, (isDigit_of_isLetter hc).2, classify_name hl, hk, by rintro rfl; exact absurd hc (by decide)⟩

theorem plain_string {s : Text} (hs : Byte.quote ∉ s) : Plain .string (utf8 "\"" ++ s ++ utf8 "\"") := by
  refine ⟨Byte.quote, s ++ [Byte.quote], rfl, by decide, ?_, rfl, by simp⟩
  rw [classify_quote, through?_append [] hs]
  simp

theorem plain_comment {t : Text} (ht : t.IsComment) : Plain .comment t := by
  obtain ⟨w, rfl, hw⟩ := ht
  refine ⟨Byte.less, w ++ [Byte.greater], rfl, by decide, ?_, rfl, fun h => absurd h (by decide)⟩
  rw [classify_less, through?_append [] hw]
  simp

theorem keyword?_of_isDigit {c : UInt8} (r : Text) (hc : Text.isDigit c = true) : keyword? (c :: r) = none := by
  have hne : ∀ (b : UInt8) (t : Text), Text.isDigit b = false → c :: r ≠ b :: t := by
    rintro b t hb h
    rw [(List.cons.inj h).1, hb] at hc
    cases hc
  have hout : c :: r ≠ utf8 "out" := hne 111 (utf8 "ut") (by decide)
  have htype : c :: r ≠ utf8 "type" := hne 116 (utf8 "ype") (by decide)
  have hif : c :: r ≠ utf8 "if" := hne 105 (utf8 "f") (by decide)
  simp [keyword?, hout, htype, hif]

/-- A number that goes as far as its digits do, and the fraction behind it. -/
theorem numberTail_digits {w d : Text} (hw : ∀ b ∈ w, Text.isDigit b = true) (hd : ∀ b ∈ d.head?, Text.isDigit b = false) :
    numberTail (w ++ d) =
      if startsWith Byte.dot d then w.length + 1 + ((d.drop 1).takeWhile Text.isDigit).length else w.length := by
  rw [numberTail_eq]
  dsimp only
  rw [(Text.takeWhile_digits hw hd).1, List.drop_left, ← List.drop_drop, List.drop_left]

theorem classify_numeral {c : UInt8} {r : Text} {d : Decimal} (h : Numeral (c :: r) d) :
    classify c r = (.number, r.length) := by
  have hc : Text.isDigit c = true := by
    obtain ⟨c', r', he, hc⟩ := h.head
    rwa [(List.cons.inj he).1]
  have htail : numberTail r = r.length := by
    generalize ht : c :: r = t at h
    cases h with
    | whole _ hw =>
      subst ht
      rw [← List.append_nil r, numberTail_digits (List.forall_mem_cons.1 hw).2 (by simp), List.append_nil]
      rfl
    | @fraction w f hne _ hw hf =>
      obtain ⟨c', w, rfl⟩ := List.exists_cons_of_ne_nil hne
      obtain ⟨rfl, rfl⟩ : c = c' ∧ r = w ++ Byte.dot :: f := List.cons.inj ht
      rw [numberTail_digits (List.forall_mem_cons.1 hw).2 (by simp; decide), if_pos (by simp [startsWith]),
        List.drop_one, List.tail_cons, List.takeWhile_eq_self_iff.2 hf, List.length_append, List.length_cons]
      omega
  unfold classify
  rw [if_pos hc, htail]

theorem plain_number (m : Magnitude) : Plain .number m.shortest.positional := by
  obtain ⟨d, hd, -⟩ := m.numeral_positional
  obtain ⟨c, r, hcr, hc⟩ := hd.head
  rw [hcr] at hd ⊢
  refine ⟨c, r, rfl, ?_, classify_numeral hd, keyword?_of_isDigit r hc, ?_⟩
  · revert hc
    simp only [Text.isDigit, Text.isBlank]
    grind
  · rintro rfl
    exact absurd hc (by decide)

theorem plain_binaryOperator : ∀ o ∈ binaryOperators, Plain .binaryOperator o := by
  intro o ho
  simp only [binaryOperators, List.mem_cons, List.not_mem_nil, or_false] at ho
  rcases ho with rfl | rfl | rfl | rfl <;> exact ⟨_, _, rfl, by decide, by decide, by decide, by decide⟩

theorem plain_comparisonOperator : ∀ o ∈ comparisonOperators, Plain .comparison o := by
  intro o ho
  simp only [comparisonOperators, List.mem_cons, List.not_mem_nil, or_false] at ho
  rcases ho with rfl | rfl | rfl <;> exact ⟨_, _, rfl, by decide, by decide, by decide, by decide⟩

theorem plain_assignmentOperator : ∀ o ∈ assignmentOperators, Plain .equals o := by
  intro o ho
  simp only [assignmentOperators, List.mem_cons, List.not_mem_nil, or_false] at ho
  rcases ho with rfl | rfl | rfl | rfl | rfl <;> exact ⟨_, _, rfl, by decide, by decide, by decide, by decide⟩

theorem plain_mark : ∀ t ∈ marks, Plain (kindOf t) t := by
  intro t ht
  simp only [marks, List.mem_cons, List.not_mem_nil, or_false] at ht
  rcases ht with rfl | rfl | rfl | rfl | rfl | rfl <;> exact ⟨_, _, rfl, by decide, by decide, by decide, by decide⟩

/-- The text of a plain token has its kind. -/
theorem Plain.kindOf_eq {kind : Kind} {text : Text} (h : Plain kind text) : kindOf text = kind := by
  obtain ⟨c, r, rfl, hb, hc, hk, hq⟩ := h
  rw [kindOf, classify_append (apart_cons.2 (by decide)) (fun _ => hk) (fun _ _ => by decide) hq, hc]

/-- A keyword and the space behind it. -/
theorem Spells.keyword {c : UInt8} {r t : Text} {kind : Kind} {ts : List Token} (h : Spells t ts)
    (hk : keyword? (c :: r) = some kind) : Spells (c :: r ++ Byte.space :: t) (Layout.word kind (c :: r) :: ts) := by
  have hc : Text.isLetter c = true := isLetter_of_keyword? hk c List.mem_cons_self
  exact (h.blank (c := Byte.space) (by decide)).token (isDigit_of_isLetter hc).2 (classify_keyword hk rfl)

end Token

end Jolt
