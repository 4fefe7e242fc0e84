import Jolt.Proofs.Layout.Lines
import Jolt.Proofs.Layout.Parsed

/-!
# Which sources keep their meaning

The layout of a program is parsed as that program exactly if the program is faithful (`Program.parse_layout_eq_iff`), for
every program that a source gives. What is left to show is that no `>` of the layout comes after a `<` that compares: the
angle brackets of the layout are angle brackets of the source, in the same order (`Reads.angles_sublist`).
-/

namespace Jolt

open Token (Kind)
open Grammar
open Layout (word enclosed terminators)

/-! ## Angle brackets -/

/-- Whether the text of a token has an angle bracket. -/
def Token.isAngled (t : Token) : Bool :=
  t.text.contains Byte.less || t.text.contains Byte.greater

/-- The tokens with angle brackets, without their places. -/
def angles (ts : List Token) : List (Kind × Text) :=
  (ts.filter Token.isAngled).map lexeme

@[simp]
theorem angles_nil : angles [] = [] :=
  rfl

@[simp]
theorem angles_append (ts us : List Token) : angles (ts ++ us) = angles ts ++ angles us := by
  simp [angles]

theorem angles_cons (t : Token) (ts : List Token) : angles (t :: ts) = angles [t] ++ angles ts := by
  rw [← angles_append]
  rfl

theorem angles_mono {ts us : List Token} (h : ts.Sublist us) : (angles ts).Sublist (angles us) :=
  (h.filter _).map _

theorem angles_word {t : Token} {kind : Kind} (h : t.kind = kind) : angles [word kind t.text] = angles [t] := by
  have hlexeme : lexeme (word kind t.text) = lexeme t := by rw [lexeme, lexeme, h, word]
  have hangled : (word kind t.text).isAngled = t.isAngled := rfl
  rw [angles, angles, List.filter_singleton, List.filter_singleton, hangled]
  cases t.isAngled <;> simp [hlexeme]

theorem angles_of_not_mem {kind : Kind} {text : Text} (hl : Byte.less ∉ text) (hg : Byte.greater ∉ text)
    (ts : List Token) : angles (word kind text :: ts) = angles ts := by
  simp [angles, Token.isAngled, word, hl, hg]

/-- The tokens that the layout adds have no angle brackets. -/
theorem angles_mark {kind : Kind} {text : Text} (h : text ∈ marks ++ keywords ++ [utf8 "("]) (ts : List Token) :
    angles (word kind text :: ts) = angles ts := by
  have hall : ∀ t ∈ marks ++ keywords ++ [utf8 "("], Byte.less ∉ t ∧ Byte.greater ∉ t := by decide
  exact angles_of_not_mem (hall text h).1 (hall text h).2 ts

theorem angles_enclosed (needed : Bool) (ts : List Token) : angles (enclosed needed ts) = angles ts := by
  cases needed with
  | false => rfl
  | true =>
    have hclose : angles [word .closedParen (utf8 ")")] = [] := angles_mark (by decide) []
    rw [enclosed, if_pos rfl, angles_mark (by decide), angles_append, hclose, List.append_nil]

theorem Expr.angles_tokens (e : Expr) (least : Nat) : angles (e.tokens least) = angles (e.tokens 0) := by
  rw [e.tokens_eq least, angles_enclosed]

/-- The tokens of what a form reads, which may be lines. -/
def Stmt.written : Stmt → List Token
  | .block b => Stmt.tokensAll b
  | s => s.tokens 0

theorem Stmt.written_expr (e : Expr) : (Stmt.expr e).written = e.tokens 0 :=
  rfl

theorem Stmt.angles_tokens (s : Stmt) (least : Nat) : (angles (s.tokens least)).Sublist (angles s.written) := by
  cases s with
  | expr e =>
    rw [Stmt.tokens, Stmt.written_expr, e.angles_tokens]
  | block => exact List.nil_sublist _
  | _ => exact List.Sublist.refl _

theorem angles_terminators (s : Stmt) : angles (terminators s) = [] := by
  unfold terminators
  split
  · exact angles_mark (by decide) []
  · rfl

/-! ## The angle brackets of a layout are those of its source -/

theorem Grammar.Chain.angles_build {c : Chain} {t : Token} {l r s : Stmt} (ho : c.isOperator t = true)
    (hb : c.build l t.text r = some s) :
    (angles s.written).Sublist (angles l.written ++ (angles [t] ++ angles r.written)) := by
  rcases Chain.build_cases hb with ⟨a, b, hc, rfl, rfl, rfl⟩ | ⟨a, b, rfl, rfl, rfl, rfl⟩ | ⟨rfl, rfl⟩
  · have hkind := (Chain.eq_ofOperator hc ho).1
    rw [Stmt.written_expr, Expr.tokens_binary, angles_append, angles_cons, angles_word hkind, a.angles_tokens,
      b.angles_tokens]
    exact List.Sublist.refl _
  · have hkind : t.kind = .comparison := by simpa [Chain.isOperator] using ho
    rw [Stmt.written_expr, Expr.tokens_comparison, angles_append, angles_cons, angles_word hkind, a.angles_tokens,
      b.angles_tokens]
    exact List.Sublist.refl _
  · have hkind : t.kind = .equals := by simpa [Chain.isOperator] using ho
    rw [Stmt.written_expr, Expr.tokens_assign, angles_append, angles_cons, angles_word hkind]
    exact (l.angles_tokens _).append ((List.Sublist.refl _).append (r.angles_tokens _))

theorem angles_number (m : Magnitude) : angles ((Expr.number (.finite false m)).tokens 0) = [] := by
  obtain ⟨d, hd, -⟩ := m.numeral_positional
  have hangle : ∀ b, Text.isDigit b = false → b ≠ Byte.dot → b ∉ m.shortest.positional := by
    intro b hdigit hdot hb
    rcases hd.byte b hb with h | h
    · simp [hdigit] at h
    · exact hdot h
  exact angles_of_not_mem (hangle _ (by decide) (by decide)) (hangle _ (by decide) (by decide)) []

theorem angles_ternary (c y n : Expr) : (angles ((Expr.ternary c y n).tokens 0)).Sublist
    (angles (c.tokens 0) ++ (angles (y.tokens 0) ++ angles (n.tokens 0))) := by
  rw [Expr.tokens_ternary, angles_append, angles_mark (by decide), c.angles_tokens]
  refine (List.Sublist.refl _).append ?_
  split
  · exact List.nil_sublist _
  · rw [angles_append, angles_mark (by decide), y.angles_tokens, n.angles_tokens]

theorem sublist_of_append {as bs cs ds : List (Kind × Text)} (h : (as ++ bs).Sublist ds) (h' : cs.Sublist bs) :
    (as ++ cs).Sublist ds :=
  (h'.append_left as).trans h

theorem Grammar.Reads.angles_sublist {f : Form} {ts rest : List Token} {s : Stmt} (h : Reads [] f ts s rest)
    (hts : ∀ t ∈ ts, t.Genuine ∧ t.text ≠ []) : (angles s.written ++ angles rest).Sublist (angles ts) := by
  have hcons : ∀ (t : Token) (ts : List Token), (angles ts).Sublist (angles (t :: ts)) := fun t ts =>
    angles_mono (List.sublist_cons_self t ts)
  induction h with
  | @identifier t ts hk =>
    rw [Stmt.written_expr, Expr.tokens, angles_enclosed, angles_enclosed, angles_word hk, angles_cons t ts]
  | @number t ts x hk hx =>
    obtain ⟨m, rfl⟩ := (hts t List.mem_cons_self).1.allows hk x hx
    rw [Stmt.written_expr, angles_number, List.nil_append]
    exact hcons t ts
  | @string t ts v hk hv =>
    have htext := ((hts t List.mem_cons_self).1.allows hk v hv).1
    rw [Stmt.written_expr, Expr.tokens, angles_enclosed, ← htext, angles_word hk, angles_cons t ts]
  | @stray t ts hk =>
    obtain ⟨hg, hne⟩ := hts t List.mem_cons_self
    have hkind : t.kind = Token.kindOf t.text := ((hg.stray hk).2 hne).symm
    rw [Stmt.written_expr, Expr.tokens_unrecognized, if_neg (by simpa using hne), angles_word hkind, angles_cons t ts]
  | atEnd | finish => exact List.Sublist.refl _
  | group _ _ _ ih =>
    have hread := ih fun t h => hts t (List.mem_cons_of_mem _ h)
    exact (sublist_of_append hread (hcons _ _)).trans (hcons _ _)
  | first _ ih | done _ _ ih | untyped _ _ ih | decided _ _ ih | unmarked _ _ ih | silent _ _ ih | plain _ _ ih =>
    exact ih hts
  | @join c t ts mid rest l r s h₁ ho _ hb ih₁ ih₂ =>
    have hr := ih₂ fun u hu => hts u (h₁.suffix.subset (List.mem_cons_of_mem _ hu))
    have hmid : (angles [t] ++ (angles r.written ++ angles rest)).Sublist (angles (t :: mid)) := by
      rw [angles_cons t mid]
      exact hr.append_left _
    refine ((Chain.angles_build ho hb).append_right _).trans ?_
    rw [List.append_assoc, List.append_assoc]
    exact sublist_of_append (ih₁ hts) hmid
  | @typeOf t ts rest e _ _ ih =>
    have hread := ih fun t h => hts t (List.mem_cons_of_mem _ h)
    rw [Stmt.written_expr, Expr.tokens_typeOf, angles_mark (by decide), e.angles_tokens]
    exact hread.trans (hcons _ _)
  | @choice t ts ts₁ ts₂ rest c y n h₁ _ h₂ _ ih₁ ih₂ ih₃ =>
    have hts₁ := fun t h => hts t (h₁.suffix.subset (List.mem_cons_of_mem _ h))
    have hn := ih₃ fun t h => hts₁ t (h₂.suffix.subset (List.mem_of_mem_drop h))
    have hy := sublist_of_append (ih₂ hts₁) (hn.trans (angles_mono (List.drop_sublist 1 ts₂)))
    refine ((angles_ternary c y n).append_right _).trans ?_
    rw [List.append_assoc, List.append_assoc]
    exact sublist_of_append (ih₁ hts) (hy.trans (hcons t ts₁))
  | @ifThen t u ts ts₁ rest c b _ h₁ _ _ ih₁ ih₂ =>
    have hts' := fun t h => hts t (List.mem_cons_of_mem _ h)
    have hb := ih₂ fun t h => hts' t (h₁.suffix.subset (List.mem_cons_of_mem _ h))
    have htokens : angles (Stmt.ifThen c b).written = angles (c.tokens 0) ++ angles (Stmt.tokensAll b) := by
      have hclose : angles [word .closeBlock (utf8 "\x7d")] = [] := angles_mark (by decide) []
      rw [Stmt.written, Stmt.tokens, angles_mark (by decide), angles_append, angles_mark (by decide), angles_append, hclose,
        List.append_nil]
      exact fun _ h => by cases h
    rw [htokens, List.append_assoc]
    exact (sublist_of_append (ih₁ hts') (hb.trans (hcons u ts₁))).trans (hcons t ts)
  | marked _ _ _ ih => exact (ih fun t h => hts t (List.mem_cons_of_mem _ h)).trans (hcons _ _)
  | @output t ts rest s _ _ ih =>
    have hread := ih fun t h => hts t (List.mem_cons_of_mem _ h)
    have htokens : angles (Stmt.output s).written = angles (s.tokens Level.ternary) := angles_mark (by decide) _
    rw [htokens]
    exact ((s.angles_tokens _).append_right _).trans (hread.trans (hcons _ _))
  | @comment t ts hk =>
    have htokens : angles (Stmt.comment t.text).written = angles [t] := angles_word hk
    rw [htokens, angles_cons t ts]
  | close => exact hcons _ _
  | skip _ _ ih => exact (ih fun t h => hts t (List.mem_cons_of_mem _ h)).trans (hcons _ _)
  | @item inBody t ts ts₁ rest s more _ _ h₁ _ ih₁ ih₂ =>
    have hmore := ih₂ fun t h => hts t (h₁.suffix.subset ((skipEndOfLine_suffix _).subset h))
    have htokens : angles (Stmt.block (s :: more)).written = angles (s.tokens 0) ++ angles (Stmt.block more).written := by
      rw [Stmt.written, Stmt.tokensAll, angles_append, angles_append, angles_terminators, List.append_nil, Stmt.written]
    rw [htokens, List.append_assoc]
    refine ((s.angles_tokens 0).append_right _).trans ?_
    exact sublist_of_append (ih₁ hts) (hmore.trans (angles_mono (skipEndOfLine_suffix ts₁).sublist))

/-! ## No comment is opened -/

theorem Token.staysOpen_iff {ts : List Token} :
    StaysOpen ts ↔ (angles ts).Pairwise fun a b => a = (.comparison, [Byte.less]) → Byte.greater ∉ b.2 := by
  unfold StaysOpen angles
  rw [List.pairwise_map, List.pairwise_filter]
  have hless : ∀ t : Token, t.isLess = true ↔ lexeme t = (.comparison, [Byte.less]) := by simp [isLess, lexeme]
  constructor
  · exact fun h => h.imp fun ht _ _ hl => ht ((hless _).2 hl)
  · refine fun h => h.imp fun {t u} hb ht hg => ?_
    have hl := (hless t).1 ht
    have htext : t.text = [Byte.less] := congrArg Prod.snd hl
    exact hb (by simp [isAngled, htext]) (by simp [isAngled, hg]) hl hg

theorem Token.StaysOpen.of_sublist {ts us : List Token} (h : StaysOpen us) (hs : (angles ts).Sublist (angles us)) :
    StaysOpen ts :=
  staysOpen_iff.2 ((staysOpen_iff.1 h).sublist hs)

/-- The layout of what a source gives opens no comment. -/
theorem Program.staysOpen_tokensAll {ts : List Token} {p : Program} (h : Reads [] (.items false) ts (.block p) [])
    (hts : ∀ t ∈ ts, t.Genuine ∧ t.text ≠ []) (ho : Token.StaysOpen ts) : Token.StaysOpen (Stmt.tokensAll p) := by
  refine ho.of_sublist ?_
  simpa [Stmt.written] using h.angles_sublist hts

/-! ## The exact condition -/

theorem Program.text_ne_nil {p : Program} (hw : Stmt.WellFormedAll p) (ho : Token.StaysOpen (Stmt.tokensAll p)) :
    ∀ t ∈ Stmt.tokensAll p, t.text ≠ [] := by
  obtain ⟨us, hs, hu⟩ := Program.spells_layout hw ho .start
  intro t ht
  obtain ⟨u, hmem, he⟩ := List.mem_map.1 (hu ▸ List.mem_map_of_mem ht)
  have htext : u.text = t.text := congrArg Prod.snd he
  exact htext ▸ hs.text_ne_nil u hmem

/-- The tokens of a regular program are read as that program exactly if it is faithful. -/
theorem Program.reads_tokensAll_iff {p : Program} (hw : Stmt.WellFormedAll p) (hr : Stmt.RegularAll false p)
    (hne : ∀ t ∈ Stmt.tokensAll p, t.text ≠ []) :
    Reads [] (.items false) (Stmt.tokensAll p) (.block p) [] ↔ Stmt.areFaithful false false p = true := by
  rw [← List.append_nil (Stmt.tokensAll p)] at hne ⊢
  constructor
  · exact Stmt.areFaithful_of_reads hw hr (Stmt.kept_of_mem p hw hr) (by simp) (fun _ => rfl) hne
  · exact fun hf => Stmt.reads_tokensAll p hw hr hf (.inr ⟨rfl, rfl, rfl⟩)

/-- A program that was parsed is parsed again from its layout, and laid out in the same way, exactly if it is faithful. -/
theorem Program.parse_layout_eq_iff {source file : Text} {p : Program} (h : parse source file = .ok p) :
    (∃ q, parse p.layout file = .ok q ∧ q = p ∧ q.layout = p.layout) ↔ Stmt.areFaithful false false p = true := by
  obtain ⟨ts, hs⟩ := Token.exists_scans .start source
  have hread := (parse_eq_ok_iff hs).1 h
  have hts : ∀ t ∈ ts, t.Genuine ∧ t.text ≠ [] := fun t ht => ⟨hs.genuine t ht, hs.text_ne_nil t ht⟩
  obtain ⟨hw, hr⟩ := hread.parsed hts
  have ho := Program.staysOpen_tokensAll hread hts hs.staysOpen
  rw [← Program.reads_tokensAll_iff hw hr (Program.text_ne_nil hw ho), ← Program.parse_layout_iff hw ho]
  constructor
  · rintro ⟨q, hq, rfl, -⟩
    exact hq
  · exact fun hp => ⟨p, hp, rfl, rfl⟩

/-- A faithful program with four placeholders, one of them a keyword and one the end of the input. -/
def Program.patched : Program :=
  [.expr (.assign
    (.expr (.assign (.expr (.identifier (utf8 "x"))) (utf8 "=")
      (.ifThen (.unrecognized (utf8 ":")) [.output (.expr (.unrecognized (utf8 ")")))])))
    (utf8 "=")
    (.expr (.ternary (.binary (.identifier (utf8 "a")) (utf8 "/") (.unrecognized (utf8 "if"))) (.identifier (utf8 "b"))
      (.unrecognized []))))]

theorem Program.parse_layout_patched : parse (utf8 "x = if (:) \x7b out ) \x7d = a / if ? b") [] = .ok Program.patched ∧
    ∃ q, parse Program.patched.layout [] = .ok q ∧ q = Program.patched ∧ q.layout = Program.patched.layout := by
  have h : parse (utf8 "x = if (:) \x7b out ) \x7d = a / if ? b") [] = .ok Program.patched := by decide +kernel
  exact ⟨h, (Program.parse_layout_eq_iff h).2 (by decide)⟩

/-- In parentheses a comment is a placeholder. Its layout is a comment, and nothing is left to evaluate. -/
theorem Program.parse_layout_comment :
    parse (utf8 "(<c>)") [] = .ok [.expr (.unrecognized (utf8 "<c>"))] ∧
      parse (Program.layout [.expr (.unrecognized (utf8 "<c>"))]) [] = .ok [.comment (utf8 "<c>")] := by
  decide +kernel

end Jolt
