import Jolt.Proofs.Layout.Reading
import Jolt.Proofs.Token.Genuine

/-!
# The trees of sources

A tree that was read from the tokens of a source is well-formed (`Reads.admits`) and regular (`Reads.regular`): a
placeholder that is a keyword has to be the first token of a form that does not take it, and only what is read last can
run into the end of the input.
-/

namespace Jolt

open Token (Kind)
open Grammar

/-! ## Well-formed trees -/

/-- What a form reads is well-formed, and of a sort that the form can give. -/
def Grammar.Form.Admits : Form → Stmt → Prop
  | .items _, .block b => Stmt.WellFormedAll b
  | .items _, _ => False
  | .statement, s => s.WellFormed
  | .output, s | .links .assignment, s | .chain .assignment, s => s.isOperand = true ∧ s.WellFormed
  | _, s => s.isShown = true ∧ s.WellFormed

theorem Stmt.isOperand_of_isShown {s : Stmt} (h : s.isShown = true) : s.isOperand = true := by
  cases s with
  | expr | ifThen => rfl
  | output | comment | block => cases h

theorem Token.Genuine.stray {t : Token} (h : t.Genuine) (hs : isStray t.kind = true) :
    (Expr.unrecognized t.text).WellFormed ∧ (t.text ≠ [] → kindOf t.text = t.kind) := by
  unfold Genuine Kind.Allows at h
  split at h
  case h_4 hk => exact ⟨.inr (.inl h), fun _ => (plain_comment h).kindOf_eq.trans hk.symm⟩
  case h_7 => exact ⟨.inr (.inr h.1), fun _ => h.2⟩
  all_goals
    rename_i hk
    rw [hk] at hs
    cases hs

theorem Token.Genuine.comparison {t : Token} (h : t.Genuine) (hk : t.kind = .comparison) :
    t.text ∈ comparisonOperators := by
  have hall : ∀ s ∈ strays, kindOf s = .comparison → s ∈ comparisonOperators := by decide
  obtain ⟨hs, hkind⟩ := h.allows hk
  exact hall _ hs hkind

theorem Token.Genuine.equals {t : Token} (h : t.Genuine) (hk : t.kind = .equals) : t.text ∈ assignmentOperators := by
  have hall : ∀ s ∈ strays, kindOf s = .equals → s ∈ assignmentOperators := by decide
  obtain ⟨hs, hkind⟩ := h.allows hk
  exact hall _ hs hkind

theorem Grammar.Chain.eq_ofOperator {c : Chain} {t : Token} (hc : c = .product ∨ c = .sum) (ho : c.isOperator t = true) :
    t.kind = .binaryOperator ∧ t.text ∈ binaryOperators ∧ c = Chain.ofOperator t.text := by
  rcases hc with rfl | rfl
  · simp only [Chain.isOperator, isProduct, Bool.and_eq_true, Bool.or_eq_true, decide_eq_true_eq] at ho
    refine ⟨ho.1, ?_⟩
    rcases ho.2 with h | h <;> rw [h] <;> decide
  · simp only [Chain.isOperator, isSum, Bool.and_eq_true, Bool.or_eq_true, decide_eq_true_eq] at ho
    refine ⟨ho.1, ?_⟩
    rcases ho.2 with h | h <;> rw [h] <;> decide

theorem Grammar.Chain.admits_build {c : Chain} {t : Token} {l r s : Stmt} (ht : t.Genuine) (ho : c.isOperator t = true)
    (hl : (Form.links c).Admits l) (hr : c.operand.Admits r) (hb : c.build l t.text r = some s) :
    (Form.links c).Admits s := by
  rcases Chain.build_cases hb with ⟨a, b, hc, rfl, rfl, rfl⟩ | ⟨a, b, rfl, rfl, rfl, rfl⟩ | ⟨rfl, rfl⟩
  · have hmem := (Chain.eq_ofOperator hc ho).2.1
    rcases hc with rfl | rfl <;> exact ⟨rfl, hmem, hl.2, hr.2⟩
  · exact ⟨rfl, ht.comparison (by simpa [Chain.isOperator] using ho), hl.2, hr.2⟩
  · exact ⟨rfl, ht.equals (by simpa [Chain.isOperator] using ho), hl, hr⟩

theorem Grammar.Reads.admits {f : Form} {ts rest : List Token} {s : Stmt} (h : Reads [] f ts s rest)
    (hg : ∀ t ∈ ts, t.Genuine) : f.Admits s := by
  induction h with
  | identifier hk => exact ⟨rfl, (hg _ List.mem_cons_self).allows hk⟩
  | number hk hx => exact ⟨rfl, (hg _ List.mem_cons_self).allows hk _ hx⟩
  | string hk hv => exact ⟨rfl, ((hg _ List.mem_cons_self).allows hk _ hv).2⟩
  | stray hk => exact ⟨rfl, ((hg _ List.mem_cons_self).stray hk).1⟩
  | atEnd => exact ⟨rfl, .inl rfl⟩
  | group _ _ _ ih => exact ⟨rfl, (ih fun t h => hg t (List.mem_cons_of_mem _ h)).2⟩
  | @first c _ _ _ _ ih =>
    have hs := ih hg
    cases c <;> exact hs
  | @join c t ts mid rest l r s h₁ ho _ hb ih₁ ih₂ =>
    have hmid := fun u hu => hg u (h₁.suffix.subset hu)
    exact Chain.admits_build (hmid t List.mem_cons_self) ho (ih₁ hg)
      (ih₂ fun u hu => hmid u (List.mem_cons_of_mem _ hu)) hb
  | @done c _ _ _ _ _ ih =>
    have hs := ih hg
    cases c <;> exact hs
  | typeOf _ _ ih => exact ⟨rfl, (ih fun t h => hg t (List.mem_cons_of_mem _ h)).2⟩
  | untyped _ _ ih | decided _ _ ih | unmarked _ _ ih => exact ih hg
  | choice h₁ _ h₂ _ ih₁ ih₂ ih₃ =>
    have hg₁ := fun t h => hg t (h₁.suffix.subset (List.mem_cons_of_mem _ h))
    exact ⟨rfl, (ih₁ hg).2, (ih₂ hg₁).2, (ih₃ fun t h => hg₁ t (h₂.suffix.subset (List.mem_of_mem_drop h))).2⟩
  | ifThen _ h₁ _ _ ih₁ ih₂ =>
    have hg' := fun t h => hg t (List.mem_cons_of_mem _ h)
    exact ⟨rfl, (ih₁ hg').2, ih₂ fun t h => hg' t (h₁.suffix.subset (List.mem_cons_of_mem _ h))⟩
  | marked _ _ _ ih => exact ⟨rfl, (ih fun t h => hg t (List.mem_cons_of_mem _ h)).2⟩
  | output _ _ ih => exact ⟨rfl, ih fun t h => hg t (List.mem_cons_of_mem _ h)⟩
  | silent _ _ ih => exact ⟨Stmt.isOperand_of_isShown (ih hg).1, (ih hg).2⟩
  | comment hk => exact (hg _ List.mem_cons_self).allows hk
  | plain _ _ ih => exact (ih hg).2
  | close | finish => exact trivial
  | skip _ _ ih =>
    exact ih fun t h => hg t (List.mem_cons_of_mem _ h)
  | item _ _ h₁ _ ih₁ ih₂ =>
    exact ⟨ih₁ hg, ih₂ fun t h => hg t (h₁.suffix.subset ((skipEndOfLine_suffix _).subset h))⟩

/-! ## Fronts -/

/-- How an expression stands that a form has read off the tokens `ts`. If it is looser than the form it was in parentheses;
then it does not start with a keyword, and the end of the input is not in it. If not, a keyword at its front is the first
of the tokens and one that the form does not take. -/
structure Expr.Fits (f : Form) (ts : List Token) (e : Expr) : Prop where
  inside : e.level < f.place → ∀ kind ∈ e.front 0, kind ∉ keywordKinds
  whole : 2 ≤ f.place → e.level < f.place → [] ∉ e.placeholders
  first : ∀ kind ∈ e.front f.place, kind ∈ keywordKinds → kind ∉ f.taken ∧ ∃ t ∈ ts.head?, t.kind = kind

section Fits

variable {f g : Form} {ts : List Token} {e : Expr}

theorem Grammar.Form.taken_subset (f : Form) : f.taken ⊆ keywordKinds := by
  cases f with
  | links c | chain c => cases c <;> decide
  | items b => cases b <;> decide
  | _ => decide

theorem Grammar.Chain.taken_links (c : Chain) : (Form.links c).taken ⊆ c.operand.taken := by
  cases c <;> decide

theorem Grammar.Chain.taken_chain (c : Chain) : (Form.chain c).taken ⊆ (Form.links c).taken := by
  cases c <;> decide

theorem Expr.Fits.opens (h : e.Fits f ts) : e.Opens f := by
  unfold Expr.Opens
  split
  · rename_i hlt
    exact h.inside hlt
  · intro kind hkind htaken
    exact (h.first kind hkind (f.taken_subset htaken)).1 htaken

theorem Expr.Fits.ends (h : e.Fits f ts) (hf : 2 ≤ f.place) : e.Ends f := by
  refine ⟨h.opens, fun hi => ?_⟩
  by_contra hlt
  exact h.whole hf (Nat.not_le.1 hlt) (e.nil_mem_placeholders hi)

theorem Expr.Fits.loosen (h : e.Fits f ts) (hp : g.place ≤ f.place)
    (ht : ∀ kind ∈ g.taken, kind ∈ f.taken ∨ Lacks kind ts) : e.Fits g ts where
  inside hlt := h.inside (Nat.lt_of_lt_of_le hlt hp)
  whole hg hlt := h.whole (Nat.le_trans hg hp) (Nat.lt_of_lt_of_le hlt hp)
  first kind hkind hkey := by
    rw [e.front_eq] at hkind
    split at hkind
    · cases hkind
    by_cases hlt : e.level < f.place
    · exact absurd hkey (h.inside hlt kind hkind)
    · obtain ⟨hf, t, hhead, hkt⟩ := h.first kind (by rw [e.front_of_le (Nat.not_lt.1 hlt)]; exact hkind) hkey
      refine ⟨fun hg => ?_, t, hhead, hkt⟩
      rcases ht kind hg with h | h
      · exact hf h
      · exact h t hhead hkt

/-- Nothing at the front of an expression in parentheses is a keyword. -/
theorem Expr.Fits.front_of_assignment (h : e.Fits (.chain .assignment) ts) : ∀ kind ∈ e.front 0, kind ∉ keywordKinds :=
  fun kind hkind hkey => (h.first kind hkind hkey).1 hkey

theorem Expr.fits_of_inside (hfront : ∀ kind ∈ e.front 0, kind ∉ keywordKinds)
    (hwhole : 2 ≤ f.place → [] ∉ e.placeholders) : e.Fits f ts where
  inside _ := hfront
  whole hf _ := hwhole hf
  first kind hkind hkey := by
    rw [e.front_eq] at hkind
    split at hkind
    · cases hkind
    · exact absurd hkey (hfront kind hkind)

theorem Expr.fits_of_front (hl : f.place ≤ e.level)
    (hfirst : ∀ kind ∈ e.front 0, kind ∈ keywordKinds → kind ∉ f.taken ∧ ∃ t ∈ ts.head?, t.kind = kind) : e.Fits f ts where
  inside hlt := absurd hl (Nat.not_le.2 hlt)
  whole _ hlt := absurd hl (Nat.not_le.2 hlt)
  first := by
    rw [e.front_of_le hl]
    exact hfirst

end Fits

theorem Grammar.Chain.fits_build {c : Chain} {t : Token} {ts : List Token} {l r : Stmt} {e : Expr}
    (ho : c.isOperator t = true) (hl : ∀ e, l = .expr e → e.Fits (.links c) ts)
    (hb : c.build l t.text r = some (.expr e)) : e.Fits (.links c) ts := by
  rcases Chain.build_cases hb with ⟨a, b, hc, rfl, rfl, hs⟩ | ⟨a, b, rfl, rfl, rfl, hs⟩ | ⟨rfl, hs⟩
  · cases hs
    obtain ⟨-, -, rfl⟩ := Chain.eq_ofOperator hc ho
    have hplace := (Chain.place_ofOperator t.text).1
    refine Expr.fits_of_front (Nat.le_of_eq hplace) fun kind hkind => (hl a rfl).first kind ?_
    rw [hplace]
    simpa [Expr.front] using hkind
  · cases hs
    refine Expr.fits_of_front (Nat.le_refl 3) fun kind hkind => (hl a rfl).first kind ?_
    have hfront : a.front 3 = some kind := by simpa [Expr.front] using hkind
    exact hfront
  · cases hs
    refine Expr.fits_of_front (Nat.zero_le _) fun kind hkind => ?_
    have hfront : l.front 1 = some kind := by simpa [Expr.front] using hkind
    cases l with
    | expr a =>
      refine (hl a rfl).first kind ?_
      rw [Stmt.front, a.front_eq] at hfront
      split at hfront
      · cases hfront
      · exact hfront
    | _ => cases hfront

theorem Grammar.Reads.eq_block {inBody : Bool} {ts rest : List Token} {s : Stmt} (h : Reads [] (.items inBody) ts s rest) :
    ∃ b, s = .block b := by
  generalize hf : Form.items inBody = f at h
  induction h with
  | close | finish | item => exact ⟨_, rfl⟩
  | skip _ _ ih => exact ih hf
  | _ => cases hf

theorem Grammar.Reads.fits {f : Form} {ts rest : List Token} {s : Stmt} (h : Reads [] f ts s rest)
    (hts : ∀ t ∈ ts, t.Genuine ∧ t.text ≠ []) : ∀ e, s = .expr e → e.Fits f ts := by
  induction h with
  | identifier | number | string | atEnd =>
    rintro e ⟨⟩
    exact Expr.fits_of_front (Nat.le_refl 6) (by simp [Expr.front])
  | @stray t ts hk =>
    rintro e ⟨⟩
    obtain ⟨hg, hne⟩ := hts t List.mem_cons_self
    refine Expr.fits_of_front (Nat.le_refl 6) fun kind hkind _ => ?_
    refine ⟨by simp [Form.taken], t, rfl, ?_⟩
    simpa [Expr.front, hne, (hg.stray hk).2 hne] using hkind
  | @group t u ts rest e _ hread _ ih =>
    rintro _ ⟨⟩
    have hts' := fun t h => hts t (List.mem_cons_of_mem _ h)
    refine Expr.fits_of_inside (ih hts' e rfl).front_of_assignment fun _ hnil => ?_
    cases hread.rest_of_placeholder (fun t h => (hts' t h).2) hnil
  | @first c _ _ _ _ ih =>
    intro e he
    exact (ih hts e he).loosen (by cases c <;> decide) fun _ hk => .inl (c.taken_links hk)
  | join h₁ ho _ hb ih₁ ih₂ =>
    rintro e rfl
    exact Chain.fits_build ho (ih₁ hts) hb
  | @done c _ _ _ _ _ ih =>
    intro e he
    exact (ih hts e he).loosen (by cases c <;> decide) fun _ hk => .inl (c.taken_chain hk)
  | typeOf =>
    rintro e ⟨⟩
    exact Expr.fits_of_front (Nat.le_refl 2) (by simp [Expr.front])
  | untyped hl _ ih =>
    intro e he
    refine (ih hts e he).loosen (by decide) fun kind hk => .inr ?_
    obtain rfl : kind = .type := by simpa [Form.taken] using hk
    exact hl
  | @choice t ts _ _ _ c _ _ h₁ _ _ _ ih =>
    rintro e ⟨⟩
    refine Expr.fits_of_front (Nat.le_refl 1) fun kind hkind => (ih hts c rfl).first kind ?_
    have hfront : c.front 2 = some kind := by simpa [Expr.front] using hkind
    exact hfront
  | decided _ _ ih =>
    intro e he
    exact (ih hts e he).loosen (by decide) fun kind hk => .inl hk
  | ifThen | output | comment | close | finish => rintro e ⟨⟩
  | @marked t ts rest e _ _ _ ih =>
    rintro _ ⟨⟩
    have hfits := ih (fun t h => hts t (List.mem_cons_of_mem _ h)) e rfl
    exact Expr.fits_of_inside hfits.front_of_assignment fun hp => absurd hp (by decide)
  | unmarked hl _ ih =>
    intro e he
    refine (ih hts e he).loosen (by decide) fun kind hk => ?_
    rcases (by simpa [Form.taken] using hk : kind = .type ∨ kind = .condition) with rfl | rfl
    · exact .inl (by decide)
    · exact .inr hl
  | silent hl _ ih =>
    intro e he
    refine (ih hts e he).loosen (by decide) fun kind hk => ?_
    rcases (by simpa [Form.taken, keywordKinds] using hk : kind = .type ∨ kind = .condition ∨ kind = .output) with
      rfl | rfl | rfl
    · exact .inl (by decide)
    · exact .inl (by decide)
    · exact .inr hl
  | plain _ _ ih =>
    intro e he
    exact (ih hts e he).loosen (by decide) fun kind hk => .inl hk
  | skip _ h =>
    obtain ⟨b, rfl⟩ := h.eq_block
    rintro e ⟨⟩
  | item => rintro e ⟨⟩

/-! ## Regular trees -/

/-- What a form reads is regular. -/
def Grammar.Form.Regulates : Form → Stmt → Prop
  | .items inBody, .block b => Stmt.RegularAll inBody b
  | .items _, _ => False
  | _, s => s.Regular

section Readings

variable {f : Form} {t : Token} {ts rest : List Token} {s : Stmt} {e : Expr} (hts : ∀ t ∈ ts, t.Genuine ∧ t.text ≠ [])

include hts

theorem Grammar.Reads.complete (h : Reads [] f ts s (t :: rest)) : s.incomplete = false := by
  by_contra hi
  cases h.rest_of_placeholder (fun t ht => (hts t ht).2) (s.nil_mem_placeholders (by simpa using hi))

/-- What is read before another token leads. -/
theorem Grammar.Reads.leads (h : Reads [] f ts (.expr e) (t :: rest)) : e.Leads f :=
  ⟨(h.fits hts e rfl).opens, h.complete hts⟩

theorem Grammar.Reads.opens (h : Reads [] f ts s rest) : s.Opens f := by
  cases s with
  | expr e => exact (h.fits hts e rfl).opens
  | _ => trivial

end Readings

/-- A front that the loosest form keeps is kept by all forms. -/
theorem Expr.Opens.tighten {e : Expr} (h : e.Opens (.links .assignment)) (f : Form) : e.Opens f := by
  have hfront : ∀ kind ∈ e.front 0, kind ∉ keywordKinds := by
    unfold Expr.Opens at h
    split at h <;> exact h
  unfold Expr.Opens
  split
  · exact hfront
  · rename_i hlt
    rw [e.front_of_le (Nat.not_lt.1 hlt)]
    exact fun kind hkind htaken => hfront kind hkind (f.taken_subset htaken)

theorem Stmt.Opens.tighten {s : Stmt} (h : s.Opens (.links .assignment)) (f : Form) : s.Opens f := by
  cases s with
  | expr e => exact Expr.Opens.tighten h f
  | _ => trivial

theorem Grammar.Chain.regular_build {c : Chain} {t : Token} {ts mid rest : List Token} {l r s : Stmt}
    (hts : ∀ t ∈ ts, t.Genuine ∧ t.text ≠ []) (h₁ : Reads [] (.links c) ts l (t :: mid)) (ho : c.isOperator t = true)
    (h₂ : Reads [] c.operand mid r rest) (hb : c.build l t.text r = some s) (hl : l.Regular) (hr : r.Regular) :
    s.Regular := by
  have hmid := fun u hu => hts u (h₁.suffix.subset (List.mem_cons_of_mem _ hu))
  rcases Chain.build_cases hb with ⟨a, b, hc, rfl, rfl, rfl⟩ | ⟨a, b, rfl, rfl, rfl, rfl⟩ | ⟨rfl, rfl⟩
  · obtain ⟨-, -, rfl⟩ := Chain.eq_ofOperator hc ho
    have hplace : 2 ≤ (Chain.ofOperator t.text).operand.place := by
      rw [(Chain.place_ofOperator t.text).2]
      exact Nat.le_trans (by decide) (Nat.succ_le_succ (Level.le_ofOperator t.text))
    exact ⟨hl, h₁.leads hts, hr, (h₂.fits hmid b rfl).ends hplace⟩
  · exact ⟨hl, h₁.leads hts, hr, (h₂.fits hmid b rfl).ends (by decide)⟩
  · exact ⟨hl, Stmt.Opens.tighten (h₁.opens hts) _, h₁.complete hts, hr, h₂.opens hmid⟩

theorem Grammar.Reads.regular {f : Form} {ts rest : List Token} {s : Stmt} (h : Reads [] f ts s rest)
    (hts : ∀ t ∈ ts, t.Genuine ∧ t.text ≠ []) : f.Regulates s := by
  induction h with
  | identifier | number | string | stray | atEnd | comment | close | finish => exact trivial
  | group _ _ _ ih | marked _ _ _ ih | skip _ _ ih => exact ih fun t h => hts t (List.mem_cons_of_mem _ h)
  | @first c _ _ _ _ ih =>
    have hs := ih hts
    cases c <;> exact hs
  | @join c t ts mid rest l r s h₁ ho h₂ hb ih₁ ih₂ =>
    have hr : r.Regular := by
      have := ih₂ fun u hu => hts u (h₁.suffix.subset (List.mem_cons_of_mem _ hu))
      cases c <;> exact this
    exact Chain.regular_build hts h₁ ho h₂ hb (ih₁ hts) hr
  | done _ _ ih | untyped _ _ ih | decided _ _ ih | unmarked _ _ ih | silent _ _ ih | plain _ _ ih => exact ih hts
  | @typeOf t ts rest e _ h ih =>
    have hts' := fun t h => hts t (List.mem_cons_of_mem _ h)
    exact ⟨ih hts', (h.fits hts' e rfl).ends (by decide)⟩
  | @choice t ts ts₁ ts₂ rest c y n h₁ _ h₂ h₃ ih₁ ih₂ ih₃ =>
    have hts₁ := fun t h => hts t (h₁.suffix.subset (List.mem_cons_of_mem _ h))
    have hts₂ : ∀ t ∈ ts₂.drop 1, t.Genuine ∧ t.text ≠ [] := fun t h =>
      hts₁ t (h₂.suffix.subset (List.mem_of_mem_drop h))
    refine ⟨ih₁ hts, h₁.leads hts, ih₂ hts₁, (h₂.fits hts₁ y rfl).ends (by decide), ih₃ hts₂,
      (h₃.fits hts₂ n rfl).ends (by decide), fun hi => ?_⟩
    -- the first value took all that was left
    rw [h₂.rest_of_placeholder (fun t h => (hts₁ t h).2) (y.nil_mem_placeholders hi)] at h₃
    cases (Reads.det (by simp) h₃ reads_typed_nil).1
    rfl
  | ifThen _ h₁ _ _ ih₁ ih₂ =>
    have hts' := fun t h => hts t (List.mem_cons_of_mem _ h)
    exact ⟨ih₁ hts', h₁.leads hts', ih₂ fun t h => hts' t (h₁.suffix.subset (List.mem_cons_of_mem _ h))⟩
  | output _ h ih =>
    have hts' := fun t h => hts t (List.mem_cons_of_mem _ h)
    exact ⟨ih hts', h.opens hts'⟩
  | @item inBody t ts ts₁ rest s more _ _ h₁ h₂ ih₁ ih₂ =>
    refine ⟨ih₁ hts, h₁.opens hts, fun hi => ?_,
      ih₂ fun t h => hts t (h₁.suffix.subset ((skipEndOfLine_suffix _).subset h))⟩
    rw [h₁.rest_of_placeholder (fun t h => (hts t h).2) (s.nil_mem_placeholders hi)] at h₂
    cases h₂ with
    | finish => exact ⟨rfl, rfl⟩

/-- The statements of a source are well-formed and regular. -/
theorem Grammar.Reads.parsed {ts : List Token} {p : Program} (h : Reads [] (.items false) ts (.block p) [])
    (hts : ∀ t ∈ ts, t.Genuine ∧ t.text ≠ []) : Stmt.WellFormedAll p ∧ Stmt.RegularAll false p :=
  ⟨h.admits fun t ht => (hts t ht).1, h.regular hts⟩

end Jolt
