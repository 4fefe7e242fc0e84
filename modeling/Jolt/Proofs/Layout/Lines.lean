import Jolt.Proofs.Layout.Kept

/-!
# Lines that are read back were kept

The converse of reading lines back (`Stmt.areFaithful_of_reads`). A statement that is read as itself is faithful, so its
line is read up to its end and the next line starts where it should. A separator in front of a line is not read at all;
then a statement is missing, and nothing that follows can make up for it (`not_reads_separators`).
-/

namespace Jolt

open Token (Kind)
open Grammar
open Layout (word)

/-! ## The placeholder at the front -/

/-- The kinds of the tokens that can come behind the first operand of an expression. -/
def operatorKinds : List Kind :=
  [.binaryOperator, .comparison, .question, .equals]

/-- The tokens `ts` of the tree `x` start with the placeholder `text`, and behind it comes an operator or nothing. -/
structure Opening (x : Stmt) (ts : List Token) (text : Text) (us : List Token) : Prop where
  tokens : ts = word (Token.kindOf text) text :: us
  wellFormed : (Expr.unrecognized text).WellFormed
  begins : (Stmt.expr (.unrecognized text)).Begins x
  alone : us = [] → x = .expr (.unrecognized text)
  operator : ∀ u ∈ us.head?, u.kind ∈ operatorKinds ∧ u.text ≠ utf8 ";"

theorem Opening.over {x l : Stmt} {ts us vs : List Token} {text : Text} {o : Token} (h : Opening l ts text us)
    (hx : x.Over l) (ho : o.kind ∈ operatorKinds ∧ o.text ≠ utf8 ";") :
    Opening x (ts ++ o :: vs) text (us ++ o :: vs) where
  tokens := by rw [h.tokens, List.cons_append]
  wellFormed := h.wellFormed
  begins := h.begins.trans hx.begins
  alone hnil := by simp at hnil
  operator u hu := by
    rcases head?_append_cons hu with hu | rfl
    · exact h.operator u hu
    · exact ho

mutual

theorem Expr.opening (e : Expr) (hw : e.WellFormed) {least : Nat} {kind : Kind} (h : e.front least = some kind) :
    ∃ text us, kind = Token.kindOf text ∧ Opening (.expr e) (e.tokens least) text us := by
  rw [e.front_eq] at h
  split at h
  · cases h
  rename_i hlt
  rw [Expr.tokens_of_le (Nat.not_lt.1 hlt)]
  cases e with
  | binary l o r =>
    obtain ⟨text, us, hk, ho⟩ := l.opening hw.2.1 (by simpa [Expr.front] using h)
    have hne : ∀ o ∈ binaryOperators, o ≠ utf8 ";" := by decide
    rw [Expr.tokens_binary]
    exact ⟨text, _, hk, ho.over rfl ⟨by simp [operatorKinds, word], hne o hw.1⟩⟩
  | comparison l o r =>
    obtain ⟨text, us, hk, ho⟩ := l.opening hw.2.1 (by simpa [Expr.front] using h)
    have hne : ∀ o ∈ comparisonOperators, o ≠ utf8 ";" := by decide
    rw [Expr.tokens_comparison]
    exact ⟨text, _, hk, ho.over rfl ⟨by simp [operatorKinds, word], hne o hw.1⟩⟩
  | ternary c y n =>
    obtain ⟨text, us, hk, ho⟩ := c.opening hw.1 (by simpa [Expr.front] using h)
    rw [Expr.tokens_ternary]
    exact ⟨text, _, hk, ho.over rfl (by decide)⟩
  | assign t o v =>
    obtain ⟨text, us, hk, ho⟩ := t.opening hw.2.1.2 (by simpa [Expr.front] using h)
    have hne : ∀ o ∈ assignmentOperators, o ≠ utf8 ";" := by decide
    rw [Expr.tokens_assign]
    exact ⟨text, _, hk, ho.over rfl ⟨by simp [operatorKinds, word], hne o hw.1⟩⟩
  | unrecognized text =>
    cases text with
    | nil => simp [Expr.front] at h
    | cons c r =>
      refine ⟨c :: r, [], by simpa [Expr.front, eq_comm] using h, ?_, hw, .refl _, fun _ => rfl, by simp⟩
      simp [Expr.tokens_unrecognized]
  | _ => simp [Expr.front] at h

theorem Stmt.opening (s : Stmt) (hw : s.WellFormed) {least : Nat} {kind : Kind} (h : s.front least = some kind) :
    ∃ text us, kind = Token.kindOf text ∧ Opening s (s.tokens least) text us := by
  cases s with
  | expr e => exact e.opening hw h
  | _ => cases h

end

/-- An operator at the front of a statement is read as a placeholder. -/
theorem Grammar.Reads.begins_of_operator {t : Token} {ts rest : List Token} {s : Stmt}
    (h : Reads [] .statement (t :: ts) s rest) (ht : t.kind ∈ operatorKinds) :
    (Stmt.expr (.unrecognized t.text)).Begins s := by
  have hlacks : ∀ kind ∉ operatorKinds, Lacks kind (t :: ts) := by
    rintro kind hk u ⟨⟩ rfl
    exact hk ht
  have hstray : ∀ kind ∈ operatorKinds, isStray kind = true := by decide
  cases h with
  | comment hc => exact absurd (hc ▸ ht) (by decide)
  | plain _ h =>
    obtain ⟨m, k, hm, hms⟩ := Reads.tighten_to (a := 6) (b := 0) h (by decide) (by decide)
      (fun _ _ => hlacks _ (by decide)) fun _ _ => ⟨hlacks _ (by decide), hlacks _ (by decide)⟩
    cases hm with
    | stray => exact hms
    | identifier hk | number hk | string hk | group hk => exact absurd (hk ▸ ht) (by decide)

/-! ## Separators at the front of a line -/

/-- A separator in the place of a statement. -/
def Stmt.separator : Stmt :=
  .expr (.unrecognized (utf8 ";"))

theorem eq_separator {text : Text} (hw : (Expr.unrecognized text).WellFormed) (h : Token.kindOf text = .endOfLine) :
    text = utf8 ";" := by
  rcases hw with rfl | hc | hs
  · cases h
  · rw [(Token.plain_comment hc).kindOf_eq] at h
    cases h
  · have hall : ∀ t ∈ strays, Token.kindOf t = .endOfLine → t = utf8 ";" := by decide
    exact hall text hs h

section Lines

variable {inBody : Bool} {tail rest k : List Token} {s y : Stmt} {more q : List Stmt}

/-- The first token of a line is the first of its statement. -/
theorem head_of_line (hw : s.WellFormed) (hi : s.incomplete = true → k = []) {t : Token} {ts : List Token}
    (hts : s.tokens 0 ++ (Layout.terminators s ++ k) = t :: ts) : t ∈ (s.tokens 0).head? := by
  cases hs : s.tokens 0 with
  | nil =>
    have hinc : s.incomplete = true := by
      by_contra hc
      exact absurd (Stmt.nil_of_tokens_nil (k := [t]) hw (fun h => absurd h hc) hs) (by simp)
    rw [hs, hi hinc, Layout.terminators, hinc] at hts
    simp at hts
  | cons u us =>
    rw [hs] at hts
    cases hts
    rfl

theorem opening_of_separator (hw : s.WellFormed) (hr : s.Regular) (hi : s.incomplete = true → k = []) {t : Token}
    {ts : List Token} (hts : s.tokens 0 ++ (Layout.terminators s ++ k) = t :: ts) (ht : t.kind = .endOfLine) :
    ∃ us, Opening s (s.tokens 0) (utf8 ";") us := by
  have ho : s.isOperand = true := by
    rcases Stmt.isOperand_or_comment hw with ho | ⟨text, rfl⟩
    · exact ho
    · cases hts
      cases ht
  have hfront : s.front 0 = some .endOfLine := by
    rcases s.head_kind hw hr ho (head_of_line hw hi hts) with h | h
    · exact absurd (ht ▸ h) (by decide)
    · exact ht ▸ h
  obtain ⟨text, us, hkind, hopen⟩ := s.opening hw hfront
  obtain rfl := eq_separator hopen.wellFormed hkind.symm
  exact ⟨us, hopen⟩

/-- If a line starts with a separator then that is skipped. What follows can only be read as a statement that starts with a
separator if the line is nothing else. -/
theorem reads_of_separator {us : List Token} (hopen : Opening s (s.tokens 0) (utf8 ";") us) {t : Token} {ts : List Token}
    (hts : s.tokens 0 ++ (Layout.terminators s ++ k) = t :: ts)
    (hread : Reads [] (.items inBody) ts (.block (y :: q)) rest) (hy : Stmt.separator.Begins y) :
    s = .separator ∧ Reads [] (.items inBody) k (.block (y :: q)) rest := by
  rw [hopen.tokens] at hts
  cases us with
  | nil =>
    obtain rfl := hopen.alone rfl
    cases hts
    cases hread with
    | skip _ hread => exact ⟨rfl, hread⟩
    | item hne => exact absurd rfl hne
  | cons u us =>
    cases hts
    obtain ⟨hu, hne⟩ := hopen.operator u rfl
    cases hread with
    | skip hk => exact absurd (hk ▸ hu) (by decide)
    | item _ _ hstmt _ =>
      have hfirst := (isFirst_unrecognized u.text).begins (hstmt.begins_of_operator hu) hy
      have heq := (isFirst_unrecognized (utf8 ";")).eq hfirst
      exact absurd (Expr.unrecognized.inj (Stmt.expr.inj heq)) hne

/-- What the line of an operand is read as keeps the operand. -/
theorem Stmt.Kept.line (h : s.Kept) (hw : s.WellFormed) (ho : s.isOperand = true) (hs : s.Opens .statement)
    (hi : s.incomplete = true → k = []) (hne : ∀ t ∈ s.tokens 0 ++ (Layout.terminators s ++ k), t.text ≠ [])
    (hy : y.isOperand = true) (hread : Reads [] .statement (s.tokens 0 ++ (Layout.terminators s ++ k)) y rest) :
    Keeps (Layout.terminators s ++ k) s y ∧ Lacks .comment (s.tokens 0 ++ (Layout.terminators s ++ k)) := by
  have hnil : s.tokens 0 = [] → Layout.terminators s ++ k = [] :=
    Stmt.nil_of_tokens_nil hw (Layout.terminators_append_nil hi)
  generalize hts : s.tokens 0 ++ (Layout.terminators s ++ k) = ts at hread hne
  cases hread with
  | comment => cases hy
  | plain hl hread =>
    subst hts
    exact ⟨h.statement hw hnil ho hs hne hread, hl⟩

/-- No lines are read as the same lines with separators before them. -/
theorem not_reads_separators (hw : Stmt.WellFormedAll more) (hr : Stmt.RegularAll inBody more)
    (hkept : ∀ s ∈ more, s.Kept) (ht : ∀ t ∈ tail.head?, t.kind = .closeBlock) (hn : inBody = false → tail = [])
    (hne : ∀ t ∈ Stmt.tokensAll more ++ tail, t.text ≠ []) (n : Nat) :
    ¬ Reads [] (.items inBody) (Stmt.tokensAll more ++ tail) (.block (List.replicate (n + 1) .separator ++ more)) rest := by
  intro hread
  induction more generalizing n with
  | nil =>
    rw [List.append_nil, List.replicate_succ] at hread
    cases htail : tail with
    | nil =>
      rw [htail] at hread
      cases hread
    | cons t ts =>
      have hclose := ht t (by rw [htail]; rfl)
      have hbody : inBody = true := by
        by_contra hb
        simp [hn (by simpa using hb)] at htail
      rw [htail] at hread
      cases hread with
      | skip hk => exact absurd (hclose.symm.trans hk) (by decide)
      | item _ hb => exact hb hbody hclose
  | cons s more ih =>
    obtain ⟨hws, hwm⟩ := hw
    have hi := hr.nil_of_incomplete hn
    obtain ⟨hrs, hos, -, hrm⟩ := hr
    rw [Stmt.tokensAll_cons_append] at hread hne
    have hnem := fun t ht => hne t (List.mem_append_right _ (List.mem_append_right _ ht))
    rw [List.replicate_succ, List.cons_append] at hread
    generalize hts : s.tokens 0 ++ (Layout.terminators s ++ (Stmt.tokensAll more ++ tail)) = ts at hread
    cases hread with
    | skip hk hread =>
      obtain ⟨us, hopen⟩ := opening_of_separator hws hrs hi hts hk
      obtain ⟨rfl, hread⟩ := reads_of_separator hopen hts hread (.refl _)
      refine ih hwm hrm (fun s hs => hkept s (List.mem_cons_of_mem _ hs)) hnem (n + 1) ?_
      rw [List.replicate_succ', List.append_assoc]
      exact hread
    | item hk _ hstmt _ =>
      rcases Stmt.isOperand_or_comment hws with ho | ⟨text, rfl⟩
      · rw [← hts] at hstmt
        have hkeeps := ((hkept s List.mem_cons_self).line hws ho hos hi hne rfl hstmt).1
        obtain rfl := hkeeps.reaches (hkeeps.first _ (.refl _))
        cases hts
        exact absurd rfl hk
      · cases hts
        cases hstmt with
        | plain hl => exact absurd rfl (hl _ rfl)

/-! ## Faithful lines -/

theorem Grammar.reads_of_skipEndOfLine {ts : List Token} (h : Reads [] (.items inBody) (skipEndOfLine ts) y rest) :
    Reads [] (.items inBody) ts y rest := by
  cases ts with
  | nil => exact h
  | cons t ts =>
    by_cases ht : t.kind = .endOfLine
    · exact .skip ht (by simpa [skipEndOfLine, accept, ht] using h)
    · simpa [skipEndOfLine, accept, ht] using h

theorem reads_of_terminators (h : Reads [] (.items inBody) (skipEndOfLine (Layout.terminators s ++ k)) y rest) :
    Reads [] (.items inBody) k y rest := by
  rw [Layout.terminators] at h
  split at h
  · exact h
  · exact reads_of_skipEndOfLine h

/-- A line that is read stands. -/
theorem Stmt.stands_of_head (hw : s.WellFormed) {t : Token} (ht : t ∈ (s.tokens 0).head?) (hc : t.kind ≠ .comment)
    (he : t.kind ≠ .endOfLine) (hb : inBody = true → t.kind ≠ .closeBlock) : s.stands inBody false = true := by
  have hne : s ≠ .expr (.unrecognized []) := by
    rintro rfl
    cases ht
  simp only [Stmt.stands, Bool.and_eq_true, decide_eq_true_eq, Option.all_eq_true]
  refine ⟨hne, fun kind hfront hmem => ?_⟩
  obtain ⟨text, us, hkind, hopen⟩ := s.opening hw hfront
  obtain rfl : word (Token.kindOf text) text = t := by simpa [hopen.tokens] using ht
  simp only [misread, hkind, List.mem_append, List.mem_cons, List.not_mem_nil] at hmem
  simp only [word] at hc he hb
  cases inBody <;> simp_all

/-- Behind a body a line stands that does not start with an assignment. -/
theorem Stmt.areFaithful_of_head {b : List Stmt} (hw : Stmt.WellFormedAll b) (hf : Stmt.areFaithful inBody false b = true)
    {afterIf : Bool} (ht : afterIf = true → ∀ t ∈ (Stmt.tokensAll b ++ tail).head?, t.kind ≠ .equals) :
    Stmt.areFaithful inBody afterIf b = true := by
  cases b with
  | nil => rfl
  | cons s more =>
    simp only [Stmt.areFaithful, Stmt.stands, Bool.and_eq_true, decide_eq_true_eq, Option.all_eq_true] at hf ⊢
    obtain ⟨⟨⟨hne, hfront⟩, hs⟩, hmore⟩ := hf
    refine ⟨⟨⟨hne, fun kind hkind hmem => ?_⟩, hs⟩, hmore⟩
    obtain ⟨text, us, rfl, hopen⟩ := s.opening hw.1 hkind
    have hmisread : Token.kindOf text ∈ misread inBody false ∨ afterIf = true ∧ Token.kindOf text = .equals := by
      cases afterIf <;> simp_all [misread]
    rcases hmisread with h | ⟨hif, h⟩
    · exact hfront _ hkind h
    · exact ht hif (word (Token.kindOf text) text) (by simp [Stmt.tokensAll, hopen.tokens]) h

/-- A body that is read as a statement is not the target of an assignment. -/
theorem Stmt.Readable.ends {c : Expr} {b : List Stmt} (h : (Stmt.ifThen c b).Readable) {k : List Token}
    (hread : Reads [] (.chain .assignment) ((Stmt.ifThen c b).tokens 0 ++ k) (.ifThen c b) rest) :
    Chain.assignment.Ends k := by
  intro t ht
  by_contra ho
  cases k with
  | nil => cases ht
  | cons u k =>
    obtain rfl : u = t := by simpa using ht
    have hlinks : Reads [] (.links .assignment) ((Stmt.ifThen c b).tokens 0 ++ u :: k) (.ifThen c b) (u :: k) :=
      .first (.silent (by simp [Lacks, Stmt.tokens, word]) (h (u :: k)))
    obtain ⟨r, k', m, -, hbuild, hm⟩ := hlinks.step_of_operator (by simpa using ho) hread
    exact (Chain.over_of_build hbuild).not_begins hm

/-- A statement that is read as itself is read up to the end of its line. -/
theorem Stmt.Readable.line (h : s.Readable) (hw : s.WellFormed) (ho : s.isOperand = true) (hs : s.Opens .statement)
    (hi : s.incomplete = true → k = []) (hread : Reads [] .statement (s.tokens 0 ++ (Layout.terminators s ++ k)) s rest) :
    rest = Layout.terminators s ++ k ∧ (s.isIf = true → Chain.assignment.Ends k) := by
  have hk := Layout.terminators_append_nil hi
  obtain ⟨hl, hchain⟩ : Lacks .comment (s.tokens 0 ++ (Layout.terminators s ++ k)) ∧
      Reads [] (.chain .assignment) (s.tokens 0 ++ (Layout.terminators s ++ k)) s rest := by
    generalize s.tokens 0 ++ (Layout.terminators s ++ k) = ts at hread
    cases hread with
    | comment => cases ho
    | plain hl h => exact ⟨hl, h⟩
  cases hif : s.isIf with
  | true =>
    cases s with
    | ifThen c b =>
      have hends : Chain.assignment.Ends k := h.ends hchain
      have hfull := h.statement hw hk ho hs hl (.inr rfl) hends
      exact ⟨(Reads.det (by simp) hread hfull).2, fun _ => hends⟩
    | _ => cases hif
  | false =>
    obtain ⟨hfollows, hends⟩ := Layout.follows_terminators ho hif hi
    have hfull := h.statement hw hk ho hs hl (.inl hfollows) hends
    exact ⟨(Reads.det (by simp) hread hfull).2, fun h => by cases h⟩

/-- Lines that are read as they are were faithful. -/
theorem Stmt.areFaithful_of_reads {b : List Stmt} (hw : Stmt.WellFormedAll b) (hr : Stmt.RegularAll inBody b)
    (hkept : ∀ s ∈ b, s.Kept) (ht : ∀ t ∈ tail.head?, t.kind = .closeBlock) (hn : inBody = false → tail = [])
    (hne : ∀ t ∈ Stmt.tokensAll b ++ tail, t.text ≠ [])
    (hread : Reads [] (.items inBody) (Stmt.tokensAll b ++ tail) (.block b) rest) :
    Stmt.areFaithful inBody false b = true := by
  induction b with
  | nil => rfl
  | cons s more ih =>
    obtain ⟨hws, hwm⟩ := hw
    have hi := hr.nil_of_incomplete hn
    obtain ⟨hrs, hos, -, hrm⟩ := hr
    rw [Stmt.tokensAll_cons_append] at hread hne
    have hnem := fun t ht => hne t (List.mem_append_right _ (List.mem_append_right _ ht))
    have hkm : ∀ s ∈ more, s.Kept := fun s hs => hkept s (List.mem_cons_of_mem _ hs)
    generalize hts : s.tokens 0 ++ (Layout.terminators s ++ (Stmt.tokensAll more ++ tail)) = ts at hread
    cases hread with
    | skip hk hread =>
      -- the line is taken for a separator, and a statement is missing
      obtain ⟨us, hopen⟩ := opening_of_separator hws hrs hi hts hk
      obtain ⟨rfl, hread⟩ := reads_of_separator hopen hts hread hopen.begins
      exact absurd hread (not_reads_separators hwm hrm hkm ht hn hnem 0)
    | item hk hb hstmt hmore =>
      rcases Stmt.isOperand_or_comment hws with ho | ⟨text, rfl⟩
      · have hhead := head_of_line hws hi hts
        rw [← hts] at hstmt
        obtain ⟨hkeeps, hl⟩ := (hkept s List.mem_cons_self).line hws ho hos hi hne ho hstmt
        have hsf : s.isFaithful = true := hkeeps.faithful (Layout.terminators_append_nil hi) (.refl _)
        obtain ⟨rfl, hends⟩ := (s.readable hws hrs hsf).line hws ho hos hi hstmt
        have hstands : s.stands inBody false = true :=
          Stmt.stands_of_head hws hhead (hl _ (by rw [hts]; rfl)) hk hb
        have hmf := ih hwm hrm hkm hnem (reads_of_terminators hmore)
        have hafter : Stmt.areFaithful inBody s.isIf more = true :=
          Stmt.areFaithful_of_head hwm hmf fun hif t h => by simpa [Chain.isOperator] using hends hif t h
        simp [Stmt.areFaithful, hstands, hsf, hafter]
      · cases hts
        cases hstmt with
        | plain hl => exact absurd rfl (hl _ rfl)
        | comment =>
          have hmf := ih hwm hrm hkm hnem (reads_of_skipEndOfLine hmore)
          simp [Stmt.areFaithful, Stmt.stands, Stmt.front, Stmt.isFaithful, Stmt.isIf, hmf]

end Lines

/-! ## Trees -/

mutual

theorem Expr.kept (e : Expr) (hw : e.WellFormed) (hr : e.Regular) : e.Kept := by
  cases e with
  | number x =>
    obtain ⟨m, rfl⟩ := hw
    exact (readable_number m).kept rfl rfl (fun h => by cases h)
  | string s => exact (readable_string s).kept rfl rfl (fun h => by cases h)
  | identifier name => exact (readable_identifier name).kept rfl rfl (fun h => by cases h)
  | binary l o r =>
    exact (Expr.joined_binary hw.1).kept hw.2.1 hw.2.2 hr.1 hr.2.1 hr.2.2.2.1 (l.kept hw.2.1 hr.1)
      (r.kept hw.2.2 hr.2.2.1) fun hl hr => by simp [Expr.isFaithful, hl, hr]
  | comparison l o r =>
    exact Expr.joined_comparison.kept hw.2.1 hw.2.2 hr.1 hr.2.1 hr.2.2.2.1 (l.kept hw.2.1 hr.1)
      (r.kept hw.2.2 hr.2.2.1) fun hl hr => by simp [Expr.isFaithful, hl, hr]
  | ternary c y n =>
    exact kept_ternary hw hr (c.kept hw.1 hr.1) (y.kept hw.2.1 hr.2.2.1) (n.kept hw.2.2 hr.2.2.2.2.1)
  | typeOf e => exact kept_typeOf hw hr.2.1 (e.kept hw hr.1)
  | assign t o v => exact kept_assign hw hr (t.kept hw.2.1.2 hr.1) (v.kept hw.2.2.2 hr.2.2.2.1)
  | unrecognized text =>
    exact (readable_unrecognized hw).kept rfl rfl fun h => by simp [Expr.tokens_unrecognized, List.isEmpty_iff.1 h]
  | missing => exact hw.elim

theorem Stmt.kept (s : Stmt) (hw : s.WellFormed) (hr : s.Regular) : s.Kept := by
  cases s with
  | expr e => exact e.kept hw hr
  | output v => exact kept_output hw hr.2 (v.kept hw.2 hr.1)
  | ifThen c b =>
    refine kept_ifThen hw.1 hr.1 hr.2.1 (c.kept hw.1 hr.1) fun k rest hne hread => ?_
    exact Stmt.areFaithful_of_reads hw.2 hr.2.2 (Stmt.kept_of_mem b hw.2 hr.2.2) (by simp [word]) (by simp) hne hread
  | comment => trivial
  | block => exact hw.elim

theorem Stmt.kept_of_mem (b : List Stmt) (hw : Stmt.WellFormedAll b) {inBody : Bool} (hr : Stmt.RegularAll inBody b) :
    ∀ s ∈ b, s.Kept := by
  cases b with
  | nil => simp
  | cons s rest =>
    have hs := s.kept hw.1 hr.1
    have hrest := Stmt.kept_of_mem rest hw.2 hr.2.2.2
    intro t ht
    rcases List.mem_cons.1 ht with rfl | ht
    · exact hs
    · exact hrest t ht

end

end Jolt
