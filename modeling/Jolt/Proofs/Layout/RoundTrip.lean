import Jolt.Proofs.Layout.Reading

/-!
# Trees without placeholders are read back

Only placeholders run into the end of the input or are taken for keywords. So a tree without them is regular and
faithful, and its layout is parsed as that tree, if no `>` comes after a `<` that compares.
-/

namespace Jolt

open Token (Kind)
open Grammar (Form)

/-! ## Fronts are placeholders -/

mutual

/-- Only a placeholder is at the front of an expression. -/
theorem Expr.placeholder_of_front (e : Expr) {least : Nat} {kind : Kind} (h : e.front least = some kind) :
    ∃ text ∈ e.placeholders, text ≠ [] ∧ kind = Token.kindOf text := by
  rw [e.front_eq] at h
  split at h
  · cases h
  cases e with
  | binary l o r =>
    obtain ⟨text, hm, ht⟩ := l.placeholder_of_front (by simpa [Expr.front] using h)
    exact ⟨text, List.mem_append_left _ hm, ht⟩
  | comparison l o r =>
    obtain ⟨text, hm, ht⟩ := l.placeholder_of_front (by simpa [Expr.front] using h)
    exact ⟨text, List.mem_append_left _ hm, ht⟩
  | ternary c y n =>
    obtain ⟨text, hm, ht⟩ := c.placeholder_of_front (by simpa [Expr.front] using h)
    exact ⟨text, List.mem_append_left _ (List.mem_append_left _ hm), ht⟩
  | assign t o v =>
    obtain ⟨text, hm, ht⟩ := t.placeholder_of_front (by simpa [Expr.front] using h)
    exact ⟨text, List.mem_append_left _ hm, ht⟩
  | unrecognized text =>
    refine ⟨text, by simp [Expr.placeholders], ?_⟩
    cases text with
    | nil => simp [Expr.front] at h
    | cons c r => simpa [Expr.front, eq_comm] using h
  | _ => simp [Expr.front] at h

theorem Stmt.placeholder_of_front (s : Stmt) {least : Nat} {kind : Kind} (h : s.front least = some kind) :
    ∃ text ∈ s.placeholders, text ≠ [] ∧ kind = Token.kindOf text := by
  cases s with
  | expr e => exact e.placeholder_of_front h
  | _ => cases h

end

/-! ## Trees without placeholders -/

section Whole

variable {e : Expr} {s : Stmt} (he : e.placeholders = []) (hs : s.placeholders = [])

include he in
theorem Expr.complete_of_placeholders : e.incomplete = false := by
  cases h : e.incomplete with
  | false => rfl
  | true => exact absurd (e.nil_mem_placeholders h) (by simp [he])

include hs in
theorem Stmt.complete_of_placeholders : s.incomplete = false := by
  cases h : s.incomplete with
  | false => rfl
  | true => exact absurd (s.nil_mem_placeholders h) (by simp [hs])

include he in
theorem Expr.front_of_placeholders (least : Nat) : e.front least = none := by
  cases h : e.front least with
  | none => rfl
  | some kind =>
    obtain ⟨text, hm, -⟩ := e.placeholder_of_front h
    exact absurd hm (by simp [he])

include hs in
theorem Stmt.front_of_placeholders (least : Nat) : s.front least = none := by
  cases s with
  | expr e => exact Expr.front_of_placeholders hs least
  | _ => rfl

include he in
theorem Expr.opens_of_placeholders (f : Form) : e.Opens f := by
  unfold Expr.Opens
  split <;> simp [Expr.front_of_placeholders he]

include hs in
theorem Stmt.opens_of_placeholders (f : Form) : s.Opens f := by
  cases s with
  | expr e => exact Expr.opens_of_placeholders hs f
  | _ => trivial

include he in
theorem Expr.leads_of_placeholders (f : Form) : e.Leads f :=
  ⟨Expr.opens_of_placeholders he f, Expr.complete_of_placeholders he⟩

include he in
theorem Expr.ends_of_placeholders (f : Form) : e.Ends f :=
  ⟨Expr.opens_of_placeholders he f, by simp [Expr.complete_of_placeholders he]⟩

include hs in
theorem Stmt.not_cutShort_of_placeholders : s.isCutShort = false :=
  Stmt.not_cutShort_of_complete (Stmt.complete_of_placeholders hs)

include hs in
theorem Stmt.stands_of_placeholders (inBody afterIf : Bool) : s.stands inBody afterIf = true := by
  have hne : s ≠ .expr (.unrecognized []) := by
    rintro rfl
    cases hs
  simp [Stmt.stands, hne, Stmt.front_of_placeholders hs]

end Whole

mutual

theorem Expr.regular_of_placeholders (e : Expr) (h : e.placeholders = []) : e.Regular ∧ e.isFaithful = true := by
  cases e with
  | binary l o r | comparison l o r =>
    obtain ⟨hl, hr⟩ := List.append_eq_nil_iff.1 h
    obtain ⟨hlr, hlf⟩ := l.regular_of_placeholders hl
    obtain ⟨hrr, hrf⟩ := r.regular_of_placeholders hr
    exact ⟨⟨hlr, Expr.leads_of_placeholders hl _, hrr, Expr.ends_of_placeholders hr _⟩, by simp [Expr.isFaithful, hlf, hrf]⟩
  | ternary c y n =>
    obtain ⟨hcy, hn⟩ := List.append_eq_nil_iff.1 h
    obtain ⟨hc, hy⟩ := List.append_eq_nil_iff.1 hcy
    obtain ⟨hcr, hcf⟩ := c.regular_of_placeholders hc
    obtain ⟨hyr, hyf⟩ := y.regular_of_placeholders hy
    obtain ⟨hnr, hnf⟩ := n.regular_of_placeholders hn
    have hyc := Expr.complete_of_placeholders hy
    exact ⟨⟨hcr, Expr.leads_of_placeholders hc _, hyr, Expr.ends_of_placeholders hy _, hnr,
      Expr.ends_of_placeholders hn _, by simp [hyc]⟩, by simp [Expr.isFaithful, hcf, hyf, hnf, hyc]⟩
  | typeOf e =>
    have h : e.placeholders = [] := h
    obtain ⟨hr, hf⟩ := e.regular_of_placeholders h
    exact ⟨⟨hr, Expr.ends_of_placeholders h _⟩, hf⟩
  | assign t o v =>
    obtain ⟨ht, hv⟩ := List.append_eq_nil_iff.1 h
    obtain ⟨htr, htf⟩ := t.regular_of_placeholders ht
    obtain ⟨hvr, hvf⟩ := v.regular_of_placeholders hv
    exact ⟨⟨htr, Stmt.opens_of_placeholders ht _, Stmt.complete_of_placeholders ht, hvr,
      Stmt.opens_of_placeholders hv _⟩, by simp [Expr.isFaithful, htf, hvf, Stmt.not_cutShort_of_placeholders hv]⟩
  | _ => exact ⟨trivial, rfl⟩

theorem Stmt.regular_of_placeholders (s : Stmt) (h : s.placeholders = []) : s.Regular ∧ s.isFaithful = true := by
  cases s with
  | expr e => exact e.regular_of_placeholders h
  | output v =>
    have h : v.placeholders = [] := h
    obtain ⟨hr, hf⟩ := v.regular_of_placeholders h
    exact ⟨⟨hr, Stmt.opens_of_placeholders h _⟩, by simp [Stmt.isFaithful, hf, Stmt.not_cutShort_of_placeholders h]⟩
  | comment => exact ⟨trivial, rfl⟩
  | ifThen c b =>
    obtain ⟨hc, hb⟩ := List.append_eq_nil_iff.1 h
    obtain ⟨hcr, hcf⟩ := c.regular_of_placeholders hc
    obtain ⟨hbr, hbf⟩ := Stmt.regularAll_of_placeholders b hb true false
    exact ⟨⟨hcr, Expr.leads_of_placeholders hc _, hbr⟩, by simp [Stmt.isFaithful, hcf, hbf]⟩
  | block b => exact Stmt.regularAll_of_placeholders b h false false

theorem Stmt.regularAll_of_placeholders (b : List Stmt) (h : Stmt.placeholdersAll b = []) (inBody afterIf : Bool) :
    Stmt.RegularAll inBody b ∧ Stmt.areFaithful inBody afterIf b = true := by
  cases b with
  | nil => exact ⟨trivial, rfl⟩
  | cons s rest =>
    obtain ⟨hs, hrest⟩ := List.append_eq_nil_iff.1 h
    obtain ⟨hsr, hsf⟩ := s.regular_of_placeholders hs
    obtain ⟨hrr, hrf⟩ := Stmt.regularAll_of_placeholders rest hrest inBody s.isIf
    exact ⟨⟨hsr, Stmt.opens_of_placeholders hs _, by simp [Stmt.complete_of_placeholders hs], hrr⟩,
      by simp [Stmt.areFaithful, Stmt.stands_of_placeholders hs, hsf, hrf]⟩

end

/-! ## Round trip -/

/-- The layout of a well-formed program without placeholders is parsed as that program, if no `>` is written behind the
`<` of a comparison. -/
theorem Program.parse_layout {p : Program} (hw : Stmt.WellFormedAll p) (hu : Stmt.placeholdersAll p = [])
    (ho : Token.StaysOpen (Stmt.tokensAll p)) (file : Text) : parse p.layout file = .ok p := by
  obtain ⟨hr, hf⟩ := Stmt.regularAll_of_placeholders p hu false false
  rw [Program.parse_layout_iff hw ho]
  simpa using Stmt.reads_tokensAll p hw hr hf (.inr ⟨rfl, rfl, rfl⟩)

/-- A comment, a keyword as a name, a chained target, a body as an operand, and a `<` with no `>` behind it. -/
def Program.entangled : Program :=
  [.comment (utf8 "<note>"),
    .expr (.assign (.expr (.assign (.expr (.identifier (utf8 "if"))) (utf8 "=") (.output (.expr (.identifier (utf8 "a"))))))
      (utf8 "+=") (.ifThen (.comparison (.identifier (utf8 "type")) (utf8 "==") (.typeOf (.string (utf8 ";"))))
        [.expr (.binary (.identifier (utf8 "a")) (utf8 "*")
          (.binary (.number (.zero false)) (utf8 "-") (.identifier (utf8 "b"))))])),
    .ifThen (.comparison (.identifier (utf8 "a")) (utf8 "<") (.identifier (utf8 "b"))) []]

theorem Program.parse_layout_entangled : Stmt.WellFormedAll Program.entangled ∧
    Stmt.placeholdersAll Program.entangled = [] ∧ Token.StaysOpen (Stmt.tokensAll Program.entangled) ∧
    parse Program.entangled.layout [] = .ok Program.entangled := by
  have hw : Stmt.WellFormedAll Program.entangled := by decide
  have ho : Token.StaysOpen (Stmt.tokensAll Program.entangled) := by decide
  exact ⟨hw, rfl, ho, Program.parse_layout hw rfl ho []⟩

end Jolt
