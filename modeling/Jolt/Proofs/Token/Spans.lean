import Jolt.Token.Scan

/-!
# The spans of tokens

`Scans p t ts` says, by rules, that the text `t` starting at `p` is cut into the tokens `ts`: a blank is passed over, and
a token takes what `Token.classify` says. `scanFrom_eq` relates the rules to the scanner.

Main statement (`scan_lossless`): nothing of a source is lost. Its bytes are those of the tokens, in order, with blanks
between them.
-/

namespace Jolt

namespace Position

@[simp]
theorem offset_after (p : Position) (b : UInt8) : (p.after b).offset = p.offset + 1 := by
  unfold after
  split <;> rfl

@[simp]
theorem offset_advance (p : Position) (t : Text) : (p.advance t).offset = p.offset + t.length := by
  induction t generalizing p with
  | nil => rfl
  | cons b t ih =>
    have h : p.advance (b :: t) = (p.after b).advance t := rfl
    rw [h, ih, offset_after, List.length_cons]
    omega

theorem advance_append (p : Position) (s t : Text) : p.advance (s ++ t) = (p.advance s).advance t :=
  List.foldl_append

end Position

namespace Token

/-! ## How much a token takes -/

theorem length_takeWhile_le {α : Type} (p : α → Bool) (l : List α) : (l.takeWhile p).length ≤ l.length :=
  (List.takeWhile_sublist p).length_le

theorem numberTail_le (t : Text) : numberTail t ≤ t.length := by
  have hw := length_takeWhile_le Text.isDigit t
  unfold numberTail
  dsimp only
  split
  · rename_i r hr
    have hf := length_takeWhile_le Text.isDigit r
    have hl : (t.drop (t.takeWhile Text.isDigit).length).length = r.length + 1 := by rw [hr]; rfl
    rw [List.length_drop] at hl
    omega
  · exact hw

theorem through?_le {b : UInt8} {t : Text} {n : Nat} (h : through? b t = some n) : n ≤ t.length := by
  obtain ⟨i, hi, rfl⟩ := Option.map_eq_some_iff.1 h
  have := (List.idxOf?_eq_some_iff.1 hi).1
  omega

theorem startsWith_length {b : UInt8} {t : Text} (h : startsWith b t = true) : 1 ≤ t.length := by
  cases t with
  | nil => cases h
  | cons c r => simp

theorem classifyWord_le (c : UInt8) (r : Text) : (classifyWord c r).2 ≤ r.length := by
  have hw := length_takeWhile_le Text.isLetter r
  unfold classifyWord
  dsimp only
  split <;> exact hw

/-- The bytes that are tokens by themselves, whatever follows them. -/
def single? (c : UInt8) : Option Kind :=
  if c = Byte.question then some .question
  else if c = Byte.colon then some .colon
  else if c = Byte.openParen then some .openParen
  else if c = Byte.closedParen then some .closedParen
  else if c = Byte.openBrace then some .openBlock
  else if c = Byte.closeBrace then some .closeBlock
  else if c = Byte.semicolon then some .endOfLine
  else none

/-- The bytes of arithmetic. -/
def isArithmetic (c : UInt8) : Prop :=
  c = Byte.plus ∨ c = Byte.minus ∨ c = Byte.star ∨ c = Byte.slash

/-- What the first byte of a token and the rest of the text make of it. -/
inductive Classified (c : UInt8) (r : Text) : Kind → Nat → Prop
  | number : Text.isDigit c = true → Classified c r .number (numberTail r)
  | word : Text.isLetter c = true → Classified c r (classifyWord c r).1 (classifyWord c r).2
  | comment {n : Nat} : c = Byte.less → through? Byte.greater r = some n → Classified c r .comment n
  | less : c = Byte.less → through? Byte.greater r = none → Classified c r .comparison 0
  | string : c = Byte.quote → Classified c r .string ((through? Byte.quote r).getD r.length)
  | single {kind : Kind} : single? c = some kind → Classified c r kind 0
  | compound : isArithmetic c → startsWith Byte.equals r = true → Classified c r .equals 1
  | arithmetic : isArithmetic c → startsWith Byte.equals r = false → Classified c r .binaryOperator 0
  | greater : c = Byte.greater → Classified c r .comparison 0
  | equality : c = Byte.equals → startsWith Byte.equals r = true → Classified c r .comparison 1
  | assign : c = Byte.equals → startsWith Byte.equals r = false → Classified c r .equals 0
  | unknown : Text.isDigit c = false → Text.isLetter c = false → c ≠ Byte.less → c ≠ Byte.quote → single? c = none →
      ¬ isArithmetic c → c ≠ Byte.greater → c ≠ Byte.equals → Classified c r .unknown 0

theorem classified (c : UInt8) (r : Text) : Classified c r (classify c r).1 (classify c r).2 := by
  let P : Kind × Nat → Prop := fun x => Classified c r x.1 x.2
  show P (classify c r)
  unfold classify
  refine iteInduction (fun h => .number h) fun hd => ?_
  refine iteInduction (fun h => .word h) fun hl => ?_
  refine iteInduction (fun h => ?_) fun h₁ => ?_
  · cases ht : through? Byte.greater r with
    | some n => exact .comment h ht
    | none => exact .less h ht
  refine iteInduction (fun h => .string h) fun h₂ => ?_
  refine iteInduction (fun h => .single (by rw [h]; rfl)) fun h₃ => ?_
  refine iteInduction (fun h => .single (by rw [h]; rfl)) fun h₄ => ?_
  refine iteInduction (fun h => ?_) fun h₅ => ?_
  · refine iteInduction (fun he => .compound h he) fun he => .arithmetic h (Bool.eq_false_iff.2 he)
  refine iteInduction (fun h => .greater h) fun h₆ => ?_
  refine iteInduction (fun h => ?_) fun h₇ => ?_
  · refine iteInduction (fun he => .equality h he) fun he => .assign h (Bool.eq_false_iff.2 he)
  refine iteInduction (fun h => .single (by rw [h]; rfl)) fun h₈ => ?_
  refine iteInduction (fun h => .single (by rw [h]; rfl)) fun h₉ => ?_
  refine iteInduction (fun h => .single (by rw [h]; rfl)) fun h₁₀ => ?_
  refine iteInduction (fun h => .single (by rw [h]; rfl)) fun h₁₁ => ?_
  refine iteInduction (fun h => .single (by rw [h]; rfl)) fun h₁₂ => ?_
  refine .unknown (Bool.eq_false_iff.2 hd) (Bool.eq_false_iff.2 hl) h₁ h₂ ?_ h₅ h₆ h₇
  rw [single?, if_neg h₃, if_neg h₄, if_neg h₈, if_neg h₉, if_neg h₁₀, if_neg h₁₁, if_neg h₁₂]

theorem Classified.le {c : UInt8} {r : Text} {kind : Kind} {n : Nat} (h : Classified c r kind n) : n ≤ r.length := by
  cases h with
  | number => exact numberTail_le r
  | word => exact classifyWord_le c r
  | comment _ h => exact through?_le h
  | string =>
    cases h : through? Byte.quote r with
    | none => exact Nat.le_refl _
    | some n => exact through?_le h
  | compound _ h | equality _ h => exact startsWith_length h
  | less | single | arithmetic | greater | assign | unknown => exact Nat.zero_le _

theorem keyword?_kind {word : Text} {kind : Kind} (h : keyword? word = some kind) :
    kind = .output ∨ kind = .type ∨ kind = .condition := by
  unfold keyword? at h
  split at h
  · simp_all
  split at h
  · simp_all
  split at h <;> simp_all

theorem classifyWord_kind (c : UInt8) (r : Text) :
    (classifyWord c r).1 = .identifier ∨ keyword? (c :: r.takeWhile Text.isLetter) = some (classifyWord c r).1 := by
  unfold classifyWord
  dsimp only
  split
  · rename_i kind h
    split <;> simp [h]
  · simp

theorem Classified.kind_ne_end {c : UInt8} {r : Text} {kind : Kind} {n : Nat} (h : Classified c r kind n) :
    kind ≠ .endOfInput := by
  cases h with
  | word =>
    rcases classifyWord_kind c r with h | h
    · simp [h]
    · rcases keyword?_kind h with h | h | h <;> simp [h]
  | single h =>
    rintro rfl
    unfold single? at h
    repeat' split at h
    all_goals cases h
  | number | comment | less | string | compound | arithmetic | greater | equality | assign | unknown => simp

/-! ## Scanning by rules -/

/-- The text `t`, which starts at `p`, is cut into the tokens `ts`. -/
inductive Scans : Position → Text → List Token → Prop
  | nil (p : Position) : Scans p [] []
  | blank {p : Position} {c : UInt8} {r : Text} {ts : List Token} : Text.isBlank c = true → Scans (p.after c) r ts →
      Scans p (c :: r) ts
  | token {p : Position} {c : UInt8} {r rest : Text} {kind : Kind} {ts : List Token} : Text.isBlank c = false →
      classify c (r ++ rest) = (kind, r.length) → Scans (p.advance (c :: r)) rest ts →
      Scans p (c :: (r ++ rest)) (⟨c :: r, kind, p⟩ :: ts)

theorem exists_scans (p : Position) (t : Text) : ∃ ts, Scans p t ts := by
  fun_induction scanFrom p t with
  | case1 p => exact ⟨[], .nil p⟩
  | case2 p c r hb ih =>
    obtain ⟨ts, hs⟩ := ih
    exact ⟨ts, .blank hb hs⟩
  | case3 p c r hb kind n hc text ih =>
    obtain ⟨ts, hs⟩ := ih
    have hn : n ≤ r.length := by simpa [hc] using (classified c r).le
    have hr : r.take n ++ r.drop n = r := List.take_append_drop n r
    have hc' : classify c (r.take n ++ r.drop n) = (kind, (r.take n).length) := by
      rw [hr, hc, List.length_take, Nat.min_eq_left hn]
    have ht := Scans.token (by simpa using hb) hc' hs
    rw [hr] at ht
    exact ⟨_, ht⟩

/-- The scanner gives the tokens of the rules, and the end of the input behind them. -/
theorem Scans.scanFrom_eq {p : Position} {t : Text} {ts : List Token} (h : Scans p t ts) :
    scanFrom p t = ts ++ [⟨[], .endOfInput, p.advance t⟩] := by
  induction h with
  | nil p => rw [scanFrom]; rfl
  | blank hb _ ih => rw [scanFrom, if_pos hb, ih]; rfl
  | @token p c r rest kind ts hb hc _ ih =>
    rw [scanFrom, if_neg (by simp [hb]), hc]
    simp only [List.take_left, List.drop_left, ih, List.cons_append]
    rw [← Position.advance_append, List.cons_append]

theorem Scans.kind_ne_end {p : Position} {t : Text} {ts : List Token} (h : Scans p t ts) :
    ∀ u ∈ ts, u.kind ≠ .endOfInput := by
  induction h with
  | nil => simp
  | blank _ _ ih => exact ih
  | @token p c r rest kind ts _ hc _ ih =>
    have := (classified c (r ++ rest)).kind_ne_end
    rw [hc] at this
    simpa [this] using ih

/-- A token of a source is the end of the input, or it is one that the rules cut off. -/
theorem scan_eq_append {source : Text} {ts us : List Token} {t : Token} (h : scan source = ts ++ t :: us) :
    t = ⟨[], .endOfInput, Position.start.advance source⟩ ∧ us = [] ∨
      ∃ more, us = more ++ [⟨[], .endOfInput, Position.start.advance source⟩] ∧
        Scans .start source (ts ++ t :: more) := by
  obtain ⟨all, hs⟩ := exists_scans .start source
  rw [scan, hs.scanFrom_eq] at h
  rcases List.eq_nil_or_concat us with rfl | ⟨more, last, rfl⟩
  · obtain ⟨-, hlast⟩ := List.append_inj' h rfl
    exact .inl ⟨(List.cons.inj hlast).1.symm, rfl⟩
  · rw [List.concat_eq_append, ← List.cons_append, ← List.append_assoc] at h
    obtain ⟨rfl, hlast⟩ := List.append_inj' h rfl
    rw [List.concat_eq_append, ← hlast]
    exact .inr ⟨more, rfl, hs⟩

/-! ## Scanning up to a token -/

/-- The text `t`, which starts at `p`, is cut into the tokens `ts` where the text `x` comes behind it. -/
inductive Cuts (x : Text) : Position → Text → List Token → Prop
  | nil (p : Position) : Cuts x p [] []
  | blank {p : Position} {c : UInt8} {t : Text} {ts : List Token} : Text.isBlank c = true → Cuts x (p.after c) t ts →
      Cuts x p (c :: t) ts
  | token {p : Position} {c : UInt8} {r t : Text} {kind : Kind} {ts : List Token} : Text.isBlank c = false →
      classify c (r ++ (t ++ x)) = (kind, r.length) → Cuts x (p.advance (c :: r)) t ts →
      Cuts x p (c :: (r ++ t)) (⟨c :: r, kind, p⟩ :: ts)

theorem Cuts.scans {x t : Text} {p : Position} {ts us : List Token} (h : Cuts x p t ts) (hx : Scans (p.advance t) x us) :
    Scans p (t ++ x) (ts ++ us) := by
  induction h with
  | nil => exact hx
  | blank hb _ ih => exact .blank hb (ih hx)
  | @token p c r t kind ts hb hc _ ih =>
    rw [← List.cons_append, Position.advance_append] at hx
    rw [List.cons_append, List.append_assoc]
    exact .token hb hc (ih hx)

/-- A token of a text, with what comes before it and what comes behind it. -/
theorem Scans.split {p : Position} {t : Text} {ts us : List Token} {u : Token} (h : Scans p t (ts ++ u :: us)) :
    ∃ before c r rest, t = before ++ c :: (r ++ rest) ∧ Cuts (c :: (r ++ rest)) p before ts ∧ Text.isBlank c = false ∧
      u = ⟨c :: r, u.kind, p.advance before⟩ ∧ classify c (r ++ rest) = (u.kind, r.length) ∧
      Scans (u.position.advance u.text) rest us := by
  generalize hall : ts ++ u :: us = all at h
  induction h generalizing ts with
  | nil => simp at hall
  | @blank p b t _ hb _ ih =>
    obtain ⟨before, c, r, rest, rfl, hcuts, hc, hu, hclassify, hrest⟩ := ih hall
    exact ⟨b :: before, c, r, rest, rfl, .blank hb hcuts, hc, hu, hclassify, hrest⟩
  | @token p c r rest kind all hb hc hs ih =>
    cases ts with
    | nil =>
      obtain ⟨rfl, rfl⟩ := List.cons.inj hall
      exact ⟨[], c, r, rest, rfl, .nil p, hb, rfl, hc, hs⟩
    | cons v ts =>
      obtain ⟨rfl, htail⟩ := List.cons.inj hall
      obtain ⟨before, c', r', rest', rfl, hcuts, hc', hu, hclassify, hrest⟩ := ih htail
      refine ⟨c :: (r ++ before), c', r', rest', by simp, .token hb hc hcuts, hc', ?_, hclassify, hrest⟩
      rw [hu, ← Position.advance_append, List.cons_append]

/-! ## Spans -/

/-- The offset behind a token. -/
def finish (t : Token) : Nat :=
  t.position.offset + t.text.length

/-- Gaps with words between them. -/
def interleave : List Text → List Text → Text
  | gap :: gaps, word :: words => gap ++ word ++ interleave gaps words
  | gap :: _, [] => gap
  | [], words => words.flatten

theorem Scans.offset_le {p : Position} {t : Text} {ts : List Token} (h : Scans p t ts) :
    ∀ u ∈ ts, p.offset ≤ u.position.offset := by
  induction h with
  | nil => simp
  | blank _ _ ih =>
    intro u hu
    have := ih u hu
    simp only [Position.offset_after] at this
    omega
  | token _ _ _ ih =>
    intro u hu
    rcases List.mem_cons.1 hu with rfl | hu
    · exact Nat.le_refl _
    · have := ih u hu
      simp only [Position.offset_advance] at this
      omega

/-- A token is not empty, and it is the piece of the source at its offset. The source is what came before `p` and the
text from there on. -/
theorem Scans.text_eq {p : Position} {t : Text} {ts : List Token} (h : Scans p t ts) :
    ∀ before : Text, before.length = p.offset → ∀ u ∈ ts,
      u.text ≠ [] ∧ ((before ++ t).drop u.position.offset).take u.text.length = u.text := by
  induction h with
  | nil => simp
  | @blank p c r ts _ _ ih =>
    intro before hl u hu
    have := ih (before ++ [c]) (by simp [hl]) u hu
    simpa using this
  | @token p c r rest kind ts _ _ _ ih =>
    intro before hl u hu
    rcases List.mem_cons.1 hu with rfl | hu
    · refine ⟨by simp, ?_⟩
      rw [← hl, List.drop_left, ← List.cons_append, List.take_left]
    · have := ih (before ++ c :: r) (by simp [hl]) u hu
      simpa using this

/-- Tokens come in the order of the source and do not overlap. -/
theorem Scans.pairwise {p : Position} {t : Text} {ts : List Token} (h : Scans p t ts) :
    ts.Pairwise fun u v => u.position.offset < v.position.offset ∧ u.finish ≤ v.position.offset := by
  induction h with
  | nil => exact .nil
  | blank _ _ ih => exact ih
  | @token p c r rest kind ts _ _ hs ih =>
    refine List.pairwise_cons.2 ⟨fun v hv => ?_, ih⟩
    have := hs.offset_le v hv
    simp only [Position.offset_advance, List.length_cons] at this
    simp only [finish, List.length_cons]
    omega

/-- A byte that is in no token is a blank. -/
theorem Scans.isBlank_of_outside {p : Position} {t : Text} {ts : List Token} (h : Scans p t ts) :
    ∀ (i : Nat) (b : UInt8), t[i]? = some b →
      (∀ u ∈ ts, ¬ (u.position.offset ≤ p.offset + i ∧ p.offset + i < u.finish)) → Text.isBlank b = true := by
  induction h with
  | nil => simp
  | @blank p c r ts hc _ ih =>
    intro i b hb ho
    cases i with
    | zero =>
      simp only [List.getElem?_cons_zero, Option.some.injEq] at hb
      exact hb ▸ hc
    | succ i =>
      refine ih i b (by simpa using hb) fun u hu => ?_
      have := ho u hu
      simp only [Position.offset_after]
      omega
  | @token p c r rest kind ts _ _ _ ih =>
    intro i b hb ho
    have h₀ := ho _ List.mem_cons_self
    simp only [finish, List.length_cons] at h₀
    -- the byte lies behind the first token
    have hi : r.length + 1 ≤ i := by omega
    refine ih (i - (r.length + 1)) b ?_ fun u hu => ?_
    · rw [← hb, ← List.cons_append, List.getElem?_append_right (by simpa using hi), List.length_cons]
    · have := ho u (List.mem_cons_of_mem _ hu)
      simp only [Position.offset_advance, List.length_cons]
      have he : p.offset + (r.length + 1) + (i - (r.length + 1)) = p.offset + i := by omega
      rwa [he]

/-- A text is the texts of its tokens with blanks around them. -/
theorem Scans.interleave {p : Position} {t : Text} {ts : List Token} (h : Scans p t ts) :
    ∃ gaps : List Text, gaps.length = ts.length + 1 ∧ (∀ g ∈ gaps, ∀ b ∈ g, Text.isBlank b = true) ∧
      t = Token.interleave gaps (ts.map (·.text)) := by
  induction h with
  | nil => exact ⟨[[]], by simp, by simp, rfl⟩
  | @blank p c r ts hc _ ih =>
    obtain ⟨gaps, hl, hb, ht⟩ := ih
    cases gaps with
    | nil => simp at hl
    | cons g gaps =>
      refine ⟨(c :: g) :: gaps, by simpa using hl, ?_, ?_⟩
      · intro g' hg' b hb'
        rcases List.mem_cons.1 hg' with rfl | hg'
        · rcases List.mem_cons.1 hb' with rfl | hb'
          · exact hc
          · exact hb g List.mem_cons_self b hb'
        · exact hb g' (List.mem_cons_of_mem _ hg') b hb'
      · cases ts <;> simp [ht, Token.interleave]
  | @token p c r rest kind ts _ _ _ ih =>
    obtain ⟨gaps, hl, hb, ht⟩ := ih
    exact ⟨[] :: gaps, by simp [hl], by simpa using hb, by simp [ht, Token.interleave]⟩

/-- **Scanning loses nothing.** The tokens of a source end with one end of input, at the offset behind the last byte.
Every other token is a nonempty piece of the source, at its offset; these pieces are in order, do not overlap, and leave
out only blanks. So the source is the texts of its tokens with blanks around them. -/
theorem scan_lossless (source : Text) :
    ∃ tokens last, scan source = tokens ++ [last] ∧
      (last.kind = .endOfInput ∧ last.text = [] ∧ last.position.offset = source.length) ∧
      (∀ t ∈ tokens, t.kind ≠ .endOfInput ∧ t.text ≠ [] ∧
        (source.drop t.position.offset).take t.text.length = t.text) ∧
      (tokens.Pairwise fun t u => t.position.offset < u.position.offset ∧ t.finish ≤ u.position.offset) ∧
      (∀ i b, source[i]? = some b → (∀ t ∈ tokens, ¬ (t.position.offset ≤ i ∧ i < t.finish)) →
        Text.isBlank b = true) ∧
      ∃ gaps : List Text, gaps.length = tokens.length + 1 ∧ (∀ g ∈ gaps, ∀ b ∈ g, Text.isBlank b = true) ∧
        source = interleave gaps (tokens.map (·.text)) := by
  obtain ⟨tokens, hs⟩ := exists_scans .start source
  refine ⟨tokens, _, hs.scanFrom_eq, ⟨rfl, rfl, by simp [Position.start]⟩, fun t ht => ⟨hs.kind_ne_end t ht, ?_⟩,
    hs.pairwise, fun i b hb ho => hs.isBlank_of_outside i b hb (by simpa [Position.start] using ho), hs.interleave⟩
  simpa using hs.text_eq [] rfl t ht

end Token

end Jolt
