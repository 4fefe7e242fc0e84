import Jolt.Proofs.Layout.Places

/-!
# Reading the tokens of a layout

The tokens of a tree that is well-formed, regular and faithful are read as that tree (`Stmt.reads_tokensAll`). The proof
goes along the tree, one lemma for each node and one for the first of some lines.
-/

namespace Jolt

open Token (Kind)
open Grammar
open Layout (word enclosed)

/-! ## Leaves -/

theorem readable_number (m : Magnitude) : (Expr.number (.finite false m)).Readable := by
  intro k _ _
  obtain ⟨d, -, hm⟩ := m.numeral_positional
  exact .number rfl hm

theorem readable_string (s : Text) : (Expr.string s).Readable := by
  intro k _ _
  exact .string rfl (unquote?_quoted s)

theorem readable_identifier (name : Text) : (Expr.identifier name).Readable := by
  intro k _ _
  have hbare : ∀ k, Reads [] (Level.form 6) (word .identifier name :: k) (.expr (.identifier name)) k :=
    fun k => .identifier rfl
  have htokens : (Expr.identifier name).tokens 0 = enclosed (Layout.isKeyword name) [word .identifier name] := by
    simp [Expr.tokens, enclosed]
  rw [htokens]
  cases Layout.isKeyword name with
  | false => exact hbare k
  | true =>
    have hf : Follows 0 (word .closedParen (utf8 ")") :: k) := by
      simp [Follows, word, Token.tightness, isProduct, isSum]
    have hlacks : ∀ {kind : Kind} {ts : List Token}, kind ≠ .identifier → Lacks kind (word .identifier name :: ts) :=
      fun hne => by simp [Lacks, word, hne.symm]
    have := (hbare (word .closedParen (utf8 ")") :: k)).loosen_to (Nat.le_refl 6) (Nat.zero_le 6) hf
      (fun _ _ => hlacks (by decide)) fun _ _ => ⟨hlacks (by decide), hlacks (by decide)⟩
    exact .group rfl (.done this (by simp [Chain.Ends, Chain.isOperator, word])) rfl

/-- A placeholder is read as the token it is. -/
theorem isStray_kindOf {text : Text} (hne : text ≠ []) (h : text = [] ∨ text.IsComment ∨ text ∈ strays) :
    isStray (Token.kindOf text) = true := by
  rcases h with h | h | h
  · exact absurd h hne
  · rw [(Token.plain_comment h).kindOf_eq]
    rfl
  · have hall : ∀ t ∈ strays, isStray (Token.kindOf t) = true := by decide
    exact hall text h

theorem readable_unrecognized {text : Text} (h : text = [] ∨ text.IsComment ∨ text ∈ strays) :
    (Expr.unrecognized text).Readable := by
  intro k hk _
  rw [Expr.tokens_unrecognized]
  cases text with
  | nil =>
    rw [hk rfl]
    exact .atEnd
  | cons c r => exact .stray (isStray_kindOf (by simp) h)

/-! ## Fronts of statements -/

/-- The kinds that a tree starts with when it starts with no placeholder. -/
def headKinds : List Kind :=
  [.number, .string, .identifier, .openParen] ++ keywordKinds

mutual

/-- An expression starts with an operand, a parenthesis, a keyword, or the placeholder at its front. -/
theorem Expr.head_kind (e : Expr) (hw : e.WellFormed) (hr : e.Regular) {least : Nat} {t : Token}
    (ht : t ∈ (e.tokens least).head?) : t.kind ∈ headKinds ∨ e.front least = some t.kind := by
  by_cases hlt : e.level < least
  · rw [Expr.tokens_of_lt hlt] at ht
    obtain rfl : word .openParen (utf8 "(") = t := by simpa using ht
    exact .inl (by decide)
  rw [e.front_of_le (Nat.not_lt.1 hlt)]
  rw [e.tokens_of_le (Nat.not_lt.1 hlt)] at ht
  cases e with
  | number x | string x =>
    obtain rfl : word _ _ = t := by simpa [Expr.tokens, enclosed] using ht
    exact .inl (by simp [headKinds, word])
  | identifier name =>
    have hkind : t.kind = .identifier ∨ t.kind = .openParen := by
      rw [Expr.tokens] at ht
      cases hn : Layout.isKeyword name <;> simp [enclosed, hn] at ht <;> simp [← ht, word]
    rcases hkind with h | h <;> rw [h] <;> exact .inl (by decide)
  | binary left operator right =>
    rw [Expr.tokens_binary, Expr.head?_tokens_append hw.2.1 hr.2.1.2] at ht
    simpa [Expr.front] using left.head_kind hw.2.1 hr.1 ht
  | comparison left operator right =>
    rw [Expr.tokens_comparison, Expr.head?_tokens_append hw.2.1 hr.2.1.2] at ht
    simpa [Expr.front] using left.head_kind hw.2.1 hr.1 ht
  | ternary condition yes no =>
    rw [Expr.tokens_ternary, Expr.head?_tokens_append hw.1 hr.2.1.2] at ht
    simpa [Expr.front] using condition.head_kind hw.1 hr.1 ht
  | typeOf operand =>
    rw [Expr.tokens_typeOf] at ht
    obtain rfl : word .type (utf8 "type") = t := by simpa using ht
    exact .inl (by decide)
  | assign target operator value =>
    rw [Expr.tokens_assign, Stmt.head?_tokens_append hw.2.1.2 hr.2.2.1] at ht
    simpa [Expr.front] using target.head_kind hw.2.1.2 hr.1 hw.2.1.1 ht
  | unrecognized text =>
    rw [Expr.tokens_unrecognized] at ht
    split at ht
    · cases ht
    · obtain rfl : word (Token.kindOf text) text = t := by simpa using ht
      simp_all [Expr.front, word]
  | missing => exact hw.elim

theorem Stmt.head_kind (s : Stmt) (hw : s.WellFormed) (hr : s.Regular) (ho : s.isOperand = true) {least : Nat}
    {t : Token} (ht : t ∈ (s.tokens least).head?) : t.kind ∈ headKinds ∨ s.front least = some t.kind := by
  cases s with
  | expr e => exact e.head_kind hw hr ht
  | output value =>
    obtain rfl : word .output (utf8 "out") = t := by simpa [Stmt.tokens] using ht
    exact .inl (by decide)
  | ifThen condition body =>
    obtain rfl : word .condition (utf8 "if") = t := by simpa [Stmt.tokens] using ht
    exact .inl (by decide)
  | comment | block => cases ho

end

/-! ## Statements -/

/-- The tokens of the statement are read by the tightest form that reads such statements. -/
def Stmt.Readable : Stmt → Prop
  | .expr e => e.Readable
  | .output v => ∀ k, (v.incomplete = true → k = []) → Follows 1 k →
      Reads [] .output ((Stmt.output v).tokens 1 ++ k) (.output v) k
  | .ifThen c b => ∀ k, Reads [] .conditional ((Stmt.ifThen c b).tokens 1 ++ k) (.ifThen c b) k
  | _ => True

theorem Expr.level_pos_of_not_cutShort {e : Expr} (h : (Stmt.expr e).isCutShort = false) (hi : e.incomplete = true) :
    1 ≤ e.level := by
  cases e with
  | assign target operator value =>
    rw [Expr.incomplete] at hi
    rw [Stmt.isCutShort, hi] at h
    cases h
  | binary left operator right => exact Nat.le_trans (by decide) (Level.le_ofOperator operator)
  | _ => simp [Expr.level]

section Operands

variable {s : Stmt} {k : List Token} (h : s.Readable) (hw : s.WellFormed) (hk : s.incomplete = true → k = [])

include h hw hk

theorem Stmt.Readable.shown (hs : s.isShown = true) (ho : s.Opens .conditional) (hc : s.isCutShort = false)
    (hf : Follows 1 k) : Reads [] .conditional (s.tokens 1 ++ k) s k := by
  cases s with
  | expr e =>
    exact Expr.Readable.reads hw hk h (f := .conditional) (by simp) ho (Expr.level_pos_of_not_cutShort hc) hf (by simp)
  | ifThen c b => exact h k
  | output | comment | block => cases hs

theorem Stmt.Readable.operand (hs : s.isOperand = true) (ho : s.Opens .output) (hc : s.isCutShort = false)
    (hf : Follows 1 k) : Reads [] .output (s.tokens 1 ++ k) s k := by
  cases s with
  | expr e =>
    exact Expr.Readable.reads hw hk h (f := .output) (by simp) ho (Expr.level_pos_of_not_cutShort hc) hf (by simp)
  | output v => exact h k hk hf
  | ifThen c b => exact .silent (by simp [Lacks, Stmt.tokens, word]) (h k)
  | comment | block => cases hs

theorem Stmt.Readable.statement (hs : s.isOperand = true) (ho : s.Opens .statement)
    (hc : Lacks .comment (s.tokens 0 ++ k)) (hf : Follows 0 k ∨ s.isIf = true) (he : Chain.assignment.Ends k) :
    Reads [] .statement (s.tokens 0 ++ k) s k := by
  refine .plain hc ?_
  cases s with
  | expr e =>
    rcases hf with hf | hf
    · exact Expr.Readable.reads hw hk h (f := .chain .assignment) (by simp) ho (fun _ => Nat.zero_le _) hf
        (by rintro c ⟨⟩; exact he)
    · cases hf
  | output v =>
    rcases hf with hf | hf
    · exact .done (.first (h k hk (hf.mono (by decide)))) he
    · cases hf
  | ifThen c b => exact .done (.first (.silent (by simp [Lacks, Stmt.tokens, word]) (h k))) he
  | comment | block => cases hs

end Operands

/-! ## Nodes -/

section Joined

variable {c : Chain} {l r x : Expr} {t : Token} (h : Expr.Joined c l t r x)

include h

theorem Expr.Joined.reads_left (hw : l.WellFormed) (hlead : l.Leads (.links c)) (hl : l.Readable) (k : List Token) :
    Reads [] (.links c) (l.tokens (Form.links c).place ++ t :: k) (.expr l) (t :: k) := by
  have hf : Follows (Form.links c).place (t :: k) := by simp [Follows, h.tight]
  exact Expr.Readable.reads hw (by simp [hlead.2]) hl (f := .links c) (by simp) hlead.1 (by simp [hlead.2]) hf (by simp)

/-- Sums, products and comparisons. -/
theorem Expr.Joined.readable (hwl : l.WellFormed) (hwr : r.WellFormed) (hlead : l.Leads (.links c))
    (hend : r.Ends c.operand) (hl : l.Readable) (hr : r.Readable) : x.Readable := by
  intro k hk hf
  rw [h.level] at hf
  rw [h.incomplete] at hk
  have hright : Reads [] c.operand (r.tokens c.operand.place ++ k) (.expr r) k := by
    refine Expr.Readable.reads hwr hk hr ?_ hend.1 hend.2 (hf.mono ?_) ?_
    · cases c <;> simp [Chain.operand]
    · cases c <;> decide
    · intro c' hc'
      refine hf.ends ?_
      have hinner := h.inner
      revert hc' hinner
      cases c <;> cases c' <;> decide
  rw [h.level, h.tokens, List.append_assoc, List.cons_append]
  have hform : Level.form (Form.links c).place = .links c := by cases c <;> rfl
  rw [hform]
  exact .join (h.reads_left hwl hlead hl _) h.operator hright h.build

end Joined

theorem readable_typeOf {e : Expr} (hw : e.WellFormed) (hr : (Expr.typeOf e).Regular) (he : e.Readable) :
    (Expr.typeOf e).Readable := by
  intro k hk hf
  obtain ⟨-, ho, hi⟩ := hr
  rw [Expr.tokens_typeOf, List.cons_append]
  have hoperand := Expr.Readable.reads hw hk he (f := .chain .comparison) (by simp) ho hi (hf.mono (Nat.le_succ 2))
    (by rintro c ⟨⟩; exact hf.ends (by simp [Expr.level]))
  exact .typeOf rfl hoperand

theorem Expr.Readable.condition {c : Expr} (hw : c.WellFormed) (hlead : c.Leads .typed) (hc : c.Readable) (k : List Token) :
    Reads [] .typed (c.tokens Level.type ++ word .question (utf8 "?") :: k) (.expr c) (word .question (utf8 "?") :: k) :=
  Expr.Readable.reads hw (by simp [hlead.2]) hc (f := .typed) (by simp) hlead.1 (by simp [hlead.2])
    (by simp [Follows, Token.tightness, isProduct, isSum, word, Form.place]) (by simp)

theorem Expr.Readable.yes {y : Expr} (hw : y.WellFormed) (hend : y.Ends .typed) (hc : y.incomplete = false)
    (hy : y.Readable) (k : List Token) :
    Reads [] .typed (y.tokens Level.type ++ word .colon (utf8 ":") :: k) (.expr y) (word .colon (utf8 ":") :: k) :=
  Expr.Readable.reads hw (by simp [hc]) hy (f := .typed) (by simp) hend.1 hend.2
    (by simp [Follows, Token.tightness, isProduct, isSum, word]) (by simp)

theorem reads_typed_nil : Reads [] .typed [] (.expr (.unrecognized [])) [] := by
  have hends : ∀ c : Chain, c.Ends [] := fun c t ht => by cases ht
  exact .untyped (fun t ht => by cases ht)
    (.done (.first (.done (.first (.done (.first .atEnd) (hends _))) (hends _))) (hends _))

theorem readable_ternary {c y n : Expr} (hw : (Expr.ternary c y n).WellFormed) (hr : (Expr.ternary c y n).Regular)
    (hc : c.Readable) (hy : y.Readable) (hn : n.Readable) (hf : y.incomplete = true → y = .unrecognized []) :
    (Expr.ternary c y n).Readable := by
  intro k hk hfol
  obtain ⟨hwc, hwy, hwn⟩ := hw
  obtain ⟨-, hlead, -, hey, -, ⟨hon, hen⟩, hyn⟩ := hr
  rw [Expr.tokens_ternary, List.append_assoc, List.cons_append]
  cases hi : y.incomplete with
  | true =>
    -- the input ends behind the question mark, and both values are empty placeholders
    obtain rfl := hf hi
    obtain rfl := hyn hi
    obtain rfl := hk rfl
    exact .choice (hc.condition hwc hlead []) rfl reads_typed_nil reads_typed_nil
  | false =>
    have hno := Expr.Readable.reads hwn hk hn (f := .typed) (by simp) hon hen (hfol.mono (Nat.le_succ 1)) (by simp)
    rw [if_neg (by decide), List.append_assoc, List.cons_append]
    exact .choice (hc.condition hwc hlead _) rfl (hy.yes hwy hey hi _) hno

theorem Stmt.not_cutShort_of_complete {s : Stmt} (h : s.incomplete = false) : s.isCutShort = false := by
  unfold Stmt.isCutShort
  split
  · exact h
  · rfl

theorem Stmt.Readable.target {t : Stmt} (h : t.Readable) (hw : t.WellFormed) (hs : t.isOperand = true)
    (ho : t.Opens .output) (hc : t.incomplete = false) (o : Text) (k : List Token) :
    Reads [] (.links .assignment) (t.tokens Level.ternary ++ word .equals o :: k) t (word .equals o :: k) :=
  .first (h.operand hw (by simp [hc]) hs ho (Stmt.not_cutShort_of_complete hc)
    (by simp [Follows, Token.tightness, isProduct, isSum, word]))

theorem readable_assign {t v : Stmt} {o : Text} (hw : (Expr.assign t o v).WellFormed)
    (hr : (Expr.assign t o v).Regular) (ht : t.Readable) (hv : v.Readable) (hc : v.isCutShort = false) :
    (Expr.assign t o v).Readable := by
  intro k hk hf
  obtain ⟨-, ⟨hst, hwt⟩, hsv, hwv⟩ := hw
  obtain ⟨-, hot, hit, -, hov⟩ := hr
  rw [Expr.tokens_assign, List.append_assoc, List.cons_append]
  have hvalue := hv.operand hwv hk hsv hov hc (hf.mono (Nat.zero_le 1))
  exact .join (ht.target hwt hst hot hit o _) (by simp [Chain.isOperator, word]) hvalue rfl

theorem readable_output {v : Stmt} (hw : (Stmt.output v).WellFormed) (hr : (Stmt.output v).Regular) (hv : v.Readable)
    (hc : v.isCutShort = false) : (Stmt.output v).Readable := by
  intro k hk hf
  exact .output rfl (hv.shown hw.2 hk hw.1 hr.2 hc hf)

theorem Expr.Readable.guard {c : Expr} (hw : c.WellFormed) (hlead : c.Leads (.chain .assignment)) (hc : c.Readable)
    (k : List Token) :
    Reads [] (.chain .assignment) (c.tokens Level.assignment ++ word .openBlock (utf8 "\x7b") :: k) (.expr c)
      (word .openBlock (utf8 "\x7b") :: k) :=
  Expr.Readable.reads hw (by simp [hlead.2]) hc (f := .chain .assignment) (by simp) hlead.1 (by simp [hlead.2])
    (by simp [Follows, Token.tightness, isProduct, isSum, word])
    (by rintro c ⟨⟩; simp [Chain.Ends, Chain.isOperator, word])

theorem Stmt.tokens_ifThen_append (c : Expr) (b : List Stmt) (least : Level) (k : List Token) :
    (Stmt.ifThen c b).tokens least ++ k = word .condition (utf8 "if") :: (c.tokens Level.assignment ++
      word .openBlock (utf8 "\x7b") :: (Stmt.tokensAll b ++ word .closeBlock (utf8 "\x7d") :: k)) := by
  simp [Stmt.tokens]

theorem readable_ifThen {c : Expr} {b : List Stmt} (hw : c.WellFormed) (hlead : c.Leads (.chain .assignment))
    (hc : c.Readable)
    (hb : ∀ k, Reads [] (.items true) (Stmt.tokensAll b ++ word .closeBlock (utf8 "\x7d") :: k) (.block b) k) :
    (Stmt.ifThen c b).Readable := by
  intro k
  rw [Stmt.tokens_ifThen_append]
  exact .ifThen rfl (hc.guard hw hlead _) rfl (hb k)

/-! ## Lines -/

theorem Stmt.isOperand_or_comment {s : Stmt} (hw : s.WellFormed) : s.isOperand = true ∨ ∃ text, s = .comment text := by
  cases s with
  | comment text => exact .inr ⟨text, rfl⟩
  | block => exact hw.elim
  | _ => exact .inl rfl

theorem Stmt.tokensAll_cons_append (s : Stmt) (rest : List Stmt) (tail : List Token) :
    Stmt.tokensAll (s :: rest) ++ tail = s.tokens 0 ++ (Layout.terminators s ++ (Stmt.tokensAll rest ++ tail)) := by
  rw [Stmt.tokensAll, List.append_assoc, List.append_assoc]

/-- Nothing follows a line that runs into the end of the input. -/
theorem Stmt.RegularAll.nil_of_incomplete {s : Stmt} {rest : List Stmt} {inBody : Bool} {tail : List Token}
    (h : Stmt.RegularAll inBody (s :: rest)) (hn : inBody = false → tail = []) (hi : s.incomplete = true) :
    Stmt.tokensAll rest ++ tail = [] := by
  obtain ⟨hb, rfl⟩ := h.2.2.1 hi
  simp [Stmt.tokensAll, hn hb]

theorem Layout.terminators_append_nil {s : Stmt} {k : List Token} (hk : s.incomplete = true → k = [])
    (hi : s.incomplete = true) : Layout.terminators s ++ k = [] := by
  simp [hk hi, Layout.terminators, hi]

/-- The line of a statement that stands starts with a token that is not misread. -/
theorem Stmt.head_of_stands {s : Stmt} {inBody afterIf : Bool} (hw : s.WellFormed) (hr : s.Regular)
    (ho : s.isOperand = true) (hs : s.stands inBody afterIf = true) :
    ∃ t ts, s.tokens 0 = t :: ts ∧ t.kind ∉ misread inBody afterIf := by
  simp only [Stmt.stands, Bool.and_eq_true, decide_eq_true_eq, Option.all_eq_true] at hs
  cases hts : s.tokens 0 with
  | nil =>
    cases s with
    | expr e => exact absurd (congrArg Stmt.expr (Expr.eq_of_tokens_nil hw hts)) hs.1
    | comment | block => cases ho
    | _ => simp [Stmt.tokens] at hts
  | cons t ts =>
    refine ⟨t, ts, rfl, ?_⟩
    rcases s.head_kind hw hr ho (by rw [hts]; rfl) with h | h
    · have hall : ∀ inBody afterIf, ∀ kind ∈ headKinds, kind ∉ misread inBody afterIf := by decide
      exact hall _ _ _ h
    · exact hs.2 _ h

/-- Neither a separator nor an assignment to the body before them comes at the front of faithful lines. -/
theorem Stmt.head_tokensAll {b : List Stmt} {inBody afterIf : Bool} {tail : List Token} (hw : Stmt.WellFormedAll b)
    (hr : Stmt.RegularAll inBody b) (hf : Stmt.areFaithful inBody afterIf b = true)
    (ht : ∀ t ∈ tail.head?, t.kind = .closeBlock) :
    ∀ t ∈ (Stmt.tokensAll b ++ tail).head?, t.kind ≠ .endOfLine ∧ (afterIf = true → t.kind ≠ .equals) := by
  intro t hmem
  cases b with
  | nil => simp [ht t hmem]
  | cons s rest =>
    rw [Stmt.areFaithful, Bool.and_eq_true, Bool.and_eq_true] at hf
    rcases Stmt.isOperand_or_comment hw.1 with ho | ⟨text, rfl⟩
    · obtain ⟨u, us, hus, hu⟩ := Stmt.head_of_stands hw.1 hr.1 ho hf.1.1
      obtain rfl : u = t := by simpa [Stmt.tokensAll, hus] using hmem
      constructor
      · exact fun h => hu (by simp [misread, h])
      · exact fun ha h => hu (by simp [misread, ha, h])
    · obtain rfl : word .comment text = t := by simpa [Stmt.tokensAll, Stmt.tokens] using hmem
      simp [word]

theorem Grammar.skipEndOfLine_eq {ts : List Token} (h : ∀ t ∈ ts.head?, t.kind ≠ .endOfLine) : skipEndOfLine ts = ts := by
  cases ts with
  | nil => rfl
  | cons t ts => simp [skipEndOfLine, accept, h t rfl]

/-- Behind a statement that is no body come its terminator or the end of the input. -/
theorem Layout.follows_terminators {s : Stmt} {k : List Token} (ho : s.isOperand = true) (hif : s.isIf = false)
    (hi : s.incomplete = true → k = []) :
    Follows 0 (Layout.terminators s ++ k) ∧ Chain.assignment.Ends (Layout.terminators s ++ k) := by
  have hterm : s.needsTerminator = true := by
    cases s with
    | comment => cases ho
    | ifThen => cases hif
    | _ => rfl
  cases hinc : s.incomplete with
  | true => simp [Layout.terminators, hinc, hi hinc, Follows, Chain.Ends]
  | false =>
    simp [Layout.terminators, hterm, hinc, Follows, Chain.Ends, Chain.isOperator, Token.tightness, isProduct, isSum, word]

/-- A statement that can be read is read as the first of its lines. -/
theorem reads_items_cons {s : Stmt} {rest : List Stmt} {inBody afterIf : Bool} {tail k : List Token}
    (hw : Stmt.WellFormedAll (s :: rest)) (hr : Stmt.RegularAll inBody (s :: rest))
    (hf : Stmt.areFaithful inBody afterIf (s :: rest) = true) (ht : ∀ t ∈ tail.head?, t.kind = .closeBlock)
    (hn : inBody = false → tail = []) (hs : s.Readable)
    (hrest : Reads [] (.items inBody) (Stmt.tokensAll rest ++ tail) (.block rest) k) :
    Reads [] (.items inBody) (Stmt.tokensAll (s :: rest) ++ tail) (.block (s :: rest)) k := by
  obtain ⟨hws, hwr⟩ := hw
  have hi := hr.nil_of_incomplete hn
  obtain ⟨hrs, hos, -, hrr⟩ := hr
  rw [Stmt.areFaithful, Bool.and_eq_true, Bool.and_eq_true] at hf
  obtain ⟨⟨hst, -⟩, hfr⟩ := hf
  have hnext := Stmt.head_tokensAll hwr hrr hfr ht
  rw [Stmt.tokensAll_cons_append]
  have hskip : skipEndOfLine (Layout.terminators s ++ (Stmt.tokensAll rest ++ tail)) = Stmt.tokensAll rest ++ tail := by
    rw [Layout.terminators]
    split
    · rfl
    · exact skipEndOfLine_eq fun t h => (hnext t h).1
  rw [← hskip] at hrest
  rcases Stmt.isOperand_or_comment hws with ho | ⟨text, rfl⟩
  · obtain ⟨u, us, hus, hu⟩ := Stmt.head_of_stands hws hrs ho hst
    have hread : Reads [] .statement (s.tokens 0 ++ (Layout.terminators s ++ (Stmt.tokensAll rest ++ tail))) s
        (Layout.terminators s ++ (Stmt.tokensAll rest ++ tail)) := by
      have hcomment : Lacks .comment (s.tokens 0 ++ (Layout.terminators s ++ (Stmt.tokensAll rest ++ tail))) := by
        rw [hus]
        simpa [Lacks] using fun h => hu (by simp [misread, h])
      have hk := Layout.terminators_append_nil hi
      cases hif : s.isIf with
      | true =>
        have hnone : Layout.terminators s = [] := by
          cases s with
          | ifThen => rfl
          | _ => cases hif
        refine hs.statement hws hk ho hos hcomment (.inr hif) fun t ht => ?_
        rw [hnone] at ht
        simpa [Chain.isOperator] using (hnext t ht).2 hif
      | false =>
        obtain ⟨hfollows, hends⟩ := Layout.follows_terminators ho hif hi
        exact hs.statement hws hk ho hos hcomment (.inl hfollows) hends
    rw [hus] at hread ⊢
    refine .item ?_ ?_ hread hrest
    · exact fun h => hu (by simp [misread, h])
    · exact fun hb h => hu (by simp [misread, hb, h])
  · exact .item (by simp [word]) (by simp [word]) (.comment rfl) hrest

/-! ## Trees -/

mutual

theorem Expr.readable (e : Expr) (hw : e.WellFormed) (hr : e.Regular) (hf : e.isFaithful = true) : e.Readable := by
  cases e with
  | number x =>
    obtain ⟨m, rfl⟩ := hw
    exact readable_number m
  | string s => exact readable_string s
  | identifier name => exact readable_identifier name
  | binary l o r =>
    rw [Expr.isFaithful, Bool.and_eq_true] at hf
    exact (Expr.joined_binary hw.1).readable hw.2.1 hw.2.2 hr.2.1 hr.2.2.2 (l.readable hw.2.1 hr.1 hf.1)
      (r.readable hw.2.2 hr.2.2.1 hf.2)
  | comparison l o r =>
    rw [Expr.isFaithful, Bool.and_eq_true] at hf
    exact Expr.joined_comparison.readable hw.2.1 hw.2.2 hr.2.1 hr.2.2.2 (l.readable hw.2.1 hr.1 hf.1)
      (r.readable hw.2.2 hr.2.2.1 hf.2)
  | ternary c y n =>
    simp only [Expr.isFaithful, Bool.and_eq_true] at hf
    obtain ⟨⟨⟨hc, hy⟩, hn⟩, hi⟩ := hf
    exact readable_ternary hw hr (c.readable hw.1 hr.1 hc) (y.readable hw.2.1 hr.2.2.1 hy)
      (n.readable hw.2.2 hr.2.2.2.2.1 hn) fun h => by simpa [h] using hi
  | typeOf e => exact readable_typeOf hw hr (e.readable hw hr.1 hf)
  | assign t o v =>
    simp only [Expr.isFaithful, Bool.and_eq_true, Bool.not_eq_true'] at hf
    exact readable_assign hw hr (t.readable hw.2.1.2 hr.1 hf.1.1) (v.readable hw.2.2.2 hr.2.2.2.1 hf.1.2) hf.2
  | unrecognized text => exact readable_unrecognized hw
  | missing => exact hw.elim

theorem Stmt.readable (s : Stmt) (hw : s.WellFormed) (hr : s.Regular) (hf : s.isFaithful = true) : s.Readable := by
  cases s with
  | expr e => exact e.readable hw hr hf
  | output v =>
    rw [Stmt.isFaithful, Bool.and_eq_true, Bool.not_eq_true'] at hf
    exact readable_output hw hr (v.readable hw.2 hr.1 hf.1) hf.2
  | comment => trivial
  | ifThen c b =>
    rw [Stmt.isFaithful, Bool.and_eq_true] at hf
    refine readable_ifThen hw.1 hr.2.1 (c.readable hw.1 hr.1 hf.1) fun k => ?_
    exact Stmt.reads_tokensAll b hw.2 hr.2.2 hf.2 (.inl ⟨rfl, rfl⟩)
  | block => exact hw.elim

/-- Faithful lines are read as they are, up to the brace of their body or to the end. -/
theorem Stmt.reads_tokensAll (b : List Stmt) {inBody afterIf : Bool} {tail k : List Token} (hw : Stmt.WellFormedAll b)
    (hr : Stmt.RegularAll inBody b) (hf : Stmt.areFaithful inBody afterIf b = true)
    (ht : inBody = true ∧ tail = word .closeBlock (utf8 "\x7d") :: k ∨ inBody = false ∧ tail = [] ∧ k = []) :
    Reads [] (.items inBody) (Stmt.tokensAll b ++ tail) (.block b) k := by
  cases b with
  | nil =>
    rcases ht with ⟨rfl, rfl⟩ | ⟨rfl, rfl, rfl⟩
    · exact .close rfl
    · exact .finish
  | cons s rest =>
    have hf' := hf
    rw [Stmt.areFaithful, Bool.and_eq_true, Bool.and_eq_true] at hf'
    refine reads_items_cons hw hr hf ?_ ?_ (s.readable hw.1 hr.1 hf'.1.2)
      (Stmt.reads_tokensAll rest hw.2 hr.2.2.2 hf'.2 ht)
    · rcases ht with ⟨rfl, rfl⟩ | ⟨rfl, rfl, rfl⟩ <;> simp [word]
    · rcases ht with ⟨rfl, rfl⟩ | ⟨rfl, rfl, rfl⟩ <;> simp

end

end Jolt
