import Jolt.Proofs.Grammar.Resume
import Jolt.Proofs.Layout.Reading

/-!
# What is read back was kept

The converse of reading a layout back: if the tokens of a regular tree are read as a tree that begins with it, then it is
faithful. The proof goes along the tree again. The left operand is on the left edge of what is read, so it is faithful
itself; then it is read as itself, the reader goes on from there, and what it reads next is the right operand.
-/

namespace Jolt

open Token (Kind)
open Grammar
open Layout (word enclosed)

/-! ## From loose forms to tight ones -/

/-- The form that reads an expression of a level to its end. -/
def Level.closing : Level → Form
  | 0 => .chain .assignment
  | 1 => .ternary
  | 2 => .typed
  | 3 => .chain .comparison
  | 4 => .chain .sum
  | 5 => .chain .product
  | _ => .literal

theorem Grammar.Reads.of_lacks_output {ts rest : List Token} {s : Stmt} (h : Reads [] .output ts s rest)
    (ho : Lacks .output ts) : Reads [] .conditional ts s rest := by
  cases h with
  | output ht => exact absurd ht (ho _ rfl)
  | silent _ h => exact h

theorem Grammar.Reads.of_lacks_condition {ts rest : List Token} {s : Stmt} (h : Reads [] .conditional ts s rest)
    (hc : Lacks .condition ts) : Reads [] .ternary ts s rest := by
  cases h with
  | ifThen ht | marked ht => exact absurd ht (hc _ rfl)
  | unmarked _ h => exact h

/-- One level tighter. -/
theorem Grammar.Reads.tighten {ts rest : List Token} {s : Stmt} {a : Nat} (h : Reads [] (Level.closing a) ts s rest)
    (ha : a ≤ 5) (ht : a = 2 → Lacks .type ts) (hc : a = 0 → Lacks .condition ts ∧ Lacks .output ts) :
    ∃ l k, Reads [] (Level.closing (a + 1)) ts l k ∧ l.Begins s := by
  match a, ha with
  | 0, _ =>
    obtain ⟨l, k, hl, hb⟩ := h.operand_begins
    exact ⟨l, k, (Reads.of_lacks_output hl (hc rfl).2).of_lacks_condition (hc rfl).1, hb⟩
  | 1, _ => exact h.typed_begins
  | 2, _ =>
    cases h with
    | typeOf hk => exact absurd hk (ht rfl _ rfl)
    | untyped _ h => exact ⟨s, rest, h, .refl s⟩
  | 3, _ | 4, _ | 5, _ => exact h.operand_begins

/-- Some levels tighter. -/
theorem Grammar.Reads.tighten_to {ts rest : List Token} {s : Stmt} {a b : Nat} (h : Reads [] (Level.closing b) ts s rest)
    (ha : a ≤ 6) (hb : b ≤ a) (ht : b ≤ 2 → 2 < a → Lacks .type ts)
    (hc : b = 0 → 0 < a → Lacks .condition ts ∧ Lacks .output ts) :
    ∃ l k, Reads [] (Level.closing a) ts l k ∧ l.Begins s := by
  induction a with
  | zero =>
    obtain rfl : b = 0 := by omega
    exact ⟨s, rest, h, .refl s⟩
  | succ a ih =>
    rcases Nat.lt_or_eq_of_le hb with hlt | rfl
    · have hba : b ≤ a := Nat.le_of_lt_succ hlt
      obtain ⟨l, k, hl, hls⟩ := ih (by omega) hba (fun h₁ h₂ => ht h₁ (by omega)) (fun h₁ _ => hc h₁ (by omega))
      obtain ⟨m, k', hm, hml⟩ := hl.tighten (by omega) (by rintro rfl; exact ht hba (by omega))
        (by rintro rfl; exact hc (by omega) (by omega))
      exact ⟨m, k', hm, hml.trans hls⟩
    · exact ⟨s, rest, h, .refl s⟩

/-! ## Readings that start at the same place -/

/-- What was read, `s`, does not stop inside the tree `x`, and a placeholder that it starts with is the one that `x` starts
with. -/
structure Aligned (x s : Stmt) : Prop where
  reaches : s.Begins x → s = x
  first : ∀ text, (Stmt.expr (.unrecognized text)).Begins s → (Stmt.expr (.unrecognized text)).Begins x

section Aligned

variable {x l m s : Stmt}

theorem aligned_self (x : Stmt) : Aligned x x :=
  ⟨fun _ => rfl, fun _ h => h⟩

theorem isFirst_unrecognized (text : Text) : (Stmt.expr (.unrecognized text)).IsFirst :=
  rfl

theorem Aligned.of_begins (h : Aligned x m) (hm : m.Begins s) : Aligned x s where
  reaches hs := by
    obtain rfl := h.reaches (hm.trans hs)
    exact hs.antisymm hm
  first text ht := h.first text ((isFirst_unrecognized text).begins ht hm)

/-- A tree that can be compared with all that was read is on the left edge of its start. -/
theorem Aligned.begins (h : Aligned x m) (hm : m.Begins s) (hx : x.Begins s ∨ s.Begins x) : x.Begins m := by
  have hcases : x.Begins m ∨ m.Begins x := by
    rcases hx with hx | hx
    · exact hx.total hm
    · exact .inr (hm.trans hx)
  rcases hcases with hx | hx
  · exact hx
  · rw [h.reaches hx]
    exact .refl x

/-- Alignment of a tree that is built over an aligned one, if the reader goes on from there. -/
theorem Aligned.over {P : Stmt → Prop} (h : Aligned l m) (hx : x.Over l) (hm : m.Begins s)
    (hs : l.Begins m → ∃ y, y.Over l ∧ y.Begins s ∧ P y) : Aligned x s ∧ (x.Begins s → P x) := by
  obtain ⟨hreach, hP⟩ := hx.reaches fun hc => hs (h.begins hm hc)
  exact ⟨⟨hreach, fun text ht => ((h.of_begins hm).first text ht).trans hx.begins⟩, hP⟩

end Aligned

/-! ## Placeholders on the left edge -/

mutual

theorem Expr.placeholders_of_spine (e : Expr) {a : Stmt} (h : a ∈ e.spine) : a.placeholders ⊆ e.placeholders := by
  cases e with
  | binary l o r | comparison l o r =>
    rcases List.mem_cons.1 h with rfl | h
    · exact List.Subset.refl _
    · exact List.Subset.trans (l.placeholders_of_spine h) (List.subset_append_left _ _)
  | ternary c y n =>
    rcases List.mem_cons.1 h with rfl | h
    · exact List.Subset.refl _
    · rw [Expr.placeholders, List.append_assoc]
      exact List.Subset.trans (c.placeholders_of_spine h) (List.subset_append_left _ _)
  | assign t o v =>
    rcases List.mem_cons.1 h with rfl | h
    · exact List.Subset.refl _
    · exact List.Subset.trans (t.placeholders_of_spine h) (List.subset_append_left _ _)
  | _ =>
    obtain rfl := List.mem_singleton.1 h
    exact List.Subset.refl _

theorem Stmt.placeholders_of_spine (s : Stmt) {a : Stmt} (h : a ∈ s.spine) : a.placeholders ⊆ s.placeholders := by
  cases s with
  | expr e => exact e.placeholders_of_spine h
  | ifThen c b =>
    rcases List.mem_cons.1 h with rfl | h
    · exact List.Subset.refl _
    · exact List.Subset.trans (c.placeholders_of_spine h) (List.subset_append_left _ _)
  | _ =>
    obtain rfl := List.mem_singleton.1 h
    exact List.Subset.refl _

end

theorem Stmt.Begins.placeholders {a s : Stmt} (h : a.Begins s) : a.placeholders ⊆ s.placeholders :=
  s.placeholders_of_spine (h.subset (a.spine_eq ▸ List.mem_cons_self))

/-! ## Expressions in their places -/

/-- What was read, `s`, is aligned with the tree `x`, and if it begins with `x` then `x` is faithful. Behind the tokens of
`x` came `k`. -/
structure Keeps (k : List Token) (x s : Stmt) : Prop extends Aligned x s where
  faithful : (x.incomplete = true → k = []) → x.Begins s → x.isFaithful = true

theorem Keeps.of_begins {k : List Token} {x m s : Stmt} (h : Keeps k x m) (hm : m.Begins s) : Keeps k x s where
  toAligned := h.toAligned.of_begins hm
  faithful hi hx := h.faithful hi (h.begins hm (.inl hx))

/-- The form of its own level keeps the expression. -/
def Expr.Kept (e : Expr) : Prop :=
  ∀ k s rest, (e.tokens 0 = [] → k = []) → (∀ t ∈ e.tokens 0 ++ k, t.text ≠ []) →
    Reads [] (Level.closing e.level) (e.tokens 0 ++ k) s rest → Keeps k (.expr e) s

section Keep

variable {e : Expr} {k rest : List Token} {s : Stmt}

theorem Expr.Kept.loosely (h : e.Kept) {f : Form} (hl : f.place ≤ e.level) (ho : ∀ kind ∈ e.front 0, kind ∉ f.taken)
    (hk : e.tokens 0 = [] → k = []) (hne : ∀ t ∈ e.tokens 0 ++ k, t.text ≠ [])
    (hread : Reads [] (Level.closing f.place) (e.tokens 0 ++ k) s rest) : Keeps k (.expr e) s := by
  obtain ⟨ht, hc⟩ := Expr.lacks_of_opens hk ho
  obtain ⟨m, k', hm, hms⟩ := hread.tighten_to e.level_le hl ht hc
  exact (h k m k' hk hne hm).of_begins hms

/-- In parentheses an expression that runs into the end of the input is not kept: the closing one would be read as its last
operand. -/
theorem Expr.Kept.placed (hw : e.WellFormed) (h : e.Kept) {f : Form} (ho : e.Opens f) (hk : e.tokens 0 = [] → k = [])
    (hne : ∀ t ∈ e.tokens f.place ++ k, t.text ≠ [])
    (hread : Reads [] (Level.closing f.place) (e.tokens f.place ++ k) s rest) :
    Keeps k (.expr e) s ∧ ((Stmt.expr e).Begins s → e.incomplete = true → f.place ≤ e.level) := by
  unfold Expr.Opens at ho
  split at ho
  · rename_i hlt
    rw [Expr.tokens_of_lt hlt, List.cons_append, List.append_assoc] at hne hread
    obtain ⟨m, k', hm, hms⟩ := hread.tighten_to (Nat.le_refl 6) f.place_le (fun _ _ => lacks_openParen (by decide))
      fun _ _ => ⟨lacks_openParen (by decide), lacks_openParen (by decide)⟩
    have hnil : e.tokens 0 ≠ [] := by
      intro hnil
      rw [Expr.eq_of_tokens_nil hw hnil] at hlt
      exact Nat.not_lt.2 f.place_le hlt
    have hne' := fun t ht => hne t (List.mem_cons_of_mem _ ht)
    cases hm with
    | @group _ u _ _ e' _ hgroup _ =>
      have hkeeps := Expr.Kept.loosely (f := .chain .assignment) h (Nat.zero_le _) ho (fun hn => absurd hn hnil) hne' hgroup
      have hcomplete : (Stmt.expr e).Begins s → e.incomplete = false := by
        intro he
        by_contra hi
        have hbegins := hkeeps.begins hms (.inl he)
        have := hbegins.placeholders (e.nil_mem_placeholders (by simpa using hi))
        cases hgroup.rest_of_placeholder hne' this
      refine ⟨⟨hkeeps.toAligned.of_begins hms, fun _ he => ?_⟩, fun he hi => absurd hi (by simp [hcomplete he])⟩
      have hc : (Stmt.expr e).incomplete = false := hcomplete he
      exact hkeeps.faithful (by simp [hc]) (hkeeps.begins hms (.inl he))
    | stray ht => cases ht
    | identifier ht | number ht | string ht => cases ht
  · rename_i hlt
    have hl : f.place ≤ e.level := Nat.not_lt.1 hlt
    rw [e.front_of_le hl] at ho
    rw [Expr.tokens_of_le hl] at hne hread
    exact ⟨h.loosely hl ho hk hne hread, fun _ _ => hl⟩

end Keep

/-! ## Leaves -/

theorem Token.tightness_le (t : Token) : t.tightness ≤ 5 := by
  unfold Token.tightness
  repeat' split
  all_goals decide

/-- A leaf that can be read is kept. -/
theorem Expr.Readable.kept {e : Expr} (h : e.Readable) (hl : e.level = 6) (hf : e.isFaithful = true)
    (hi : e.incomplete = true → e.tokens 0 = []) : e.Kept := by
  intro k s rest hk hne hread
  have hread' := h k (fun hinc => hk (hi hinc)) fun t _ => Nat.le_trans t.tightness_le (by rw [hl]; decide)
  rw [hl] at hread hread'
  obtain ⟨rfl, rfl⟩ := Reads.det (by simp [Level.closing]) hread hread'
  exact ⟨aligned_self _, fun _ _ => hf⟩

/-! ## Nodes -/

/-- Sums, products and comparisons. -/
theorem Expr.Joined.kept {c : Chain} {l r x : Expr} {t : Token} (h : Expr.Joined c l t r x) (hwl : l.WellFormed)
    (hwr : r.WellFormed) (hrl : l.Regular) (hlead : l.Leads (.links c)) (ho : r.Opens c.operand) (hl : l.Kept)
    (hr : r.Kept) (hx : l.isFaithful = true → r.isFaithful = true → x.isFaithful = true) : x.Kept := by
  intro k s rest _ hne hread
  rw [h.level] at hread
  rw [h.tokens, List.append_assoc, List.cons_append] at hne hread
  have hnil : l.tokens 0 = [] → t :: (r.tokens c.operand.place ++ k) = [] := Expr.nil_of_tokens_nil hwl (by simp [hlead.2])
  have hkeeps := (Expr.Kept.placed hwl hl (f := .links c) hlead.1 hnil hne hread).1
  have hclosing : Level.closing (Form.links c).place = .chain c := by cases c <;> rfl
  rw [hclosing] at hread
  -- once the left operand is on the left edge, it is read as itself and the operator takes the reader on
  obtain ⟨halign, hright⟩ := hkeeps.toAligned.over (Chain.over_of_build h.build) (.refl s)
    (P := fun y => l.isFaithful = true ∧ ∃ r' rest', c.build (.expr l) t.text r' = some y ∧
      Reads [] c.operand (r.tokens c.operand.place ++ k) r' rest') fun hb => by
    have hlf : l.isFaithful = true := hkeeps.faithful (by simp [Stmt.incomplete, hlead.2]) hb
    obtain ⟨r', k', m, hr', hbuild, hm⟩ :=
      (h.reads_left hwl hlead (l.readable hwl hrl hlf) _).step_of_operator h.operator hread
    exact ⟨m, Chain.over_of_build hbuild, hm, hlf, r', k', hbuild, hr'⟩
  refine ⟨halign, fun hi hb => ?_⟩
  obtain ⟨hlf, r', rest', hbuild, hr'⟩ := hright hb
  obtain rfl := Chain.build_inj hbuild h.build
  have hi' : r.incomplete = true → k = [] := h.incomplete ▸ hi
  have hclosing' : Level.closing c.operand.place = c.operand := by
    have hinner := h.inner
    cases c <;> first | rfl | exact absurd rfl hinner
  have hkr := (hr.placed hwr ho (Expr.nil_of_tokens_nil hwr hi')
    (fun u hu => hne u (List.mem_append_right _ (List.mem_cons_of_mem _ hu))) (by rw [hclosing']; exact hr')).1
  exact hx hlf (hkr.faithful hi' (.refl _))

theorem kept_typeOf {e : Expr} (hw : e.WellFormed) (ho : e.Opens (.chain .comparison)) (h : e.Kept) :
    (Expr.typeOf e).Kept := by
  intro k s rest _ hne hread
  rw [Expr.tokens_typeOf, List.cons_append] at hne hread
  have hne' := fun u hu => hne u (List.mem_cons_of_mem _ hu)
  cases hread with
  | untyped hl => exact absurd rfl (hl _ rfl)
  | @typeOf _ _ _ e' _ hread =>
    have hfirst : ∀ e, (Stmt.expr (.typeOf e)).IsFirst := fun _ => rfl
    refine ⟨⟨(hfirst e).eq, fun text ht => ?_⟩, fun hi hb => ?_⟩
    · cases (hfirst e').eq ht
    · cases (hfirst e').eq hb
      have hk := (Expr.Kept.placed hw h ho (Expr.nil_of_tokens_nil hw hi) hne' hread).1
      exact hk.faithful hi (.refl _)

theorem kept_ternary {c y n : Expr} (hw : (Expr.ternary c y n).WellFormed) (hr : (Expr.ternary c y n).Regular)
    (hc : c.Kept) (hy : y.Kept) (hn : n.Kept) : (Expr.ternary c y n).Kept := by
  intro k s rest _ hne hread
  obtain ⟨hwc, hwy, hwn⟩ := hw
  obtain ⟨hrc, hlead, hry, hey, -, ⟨hon, -⟩, hyn⟩ := hr
  rw [Expr.tokens_ternary, List.append_assoc, List.cons_append] at hne hread
  generalize htail : (if y.incomplete = true then [] else
    y.tokens Level.type ++ word .colon (utf8 ":") :: n.tokens Level.type) ++ k = tail at hne hread
  obtain ⟨m, k', hm, hms⟩ := Reads.typed_begins hread
  have hkeeps := (Expr.Kept.placed hwc hc (f := .typed) hlead.1 (Expr.nil_of_tokens_nil hwc (by simp [hlead.2])) hne hm).1
  have hover : ∀ y n, (Stmt.expr (.ternary c y n)).Over (.expr c) := fun _ _ => rfl
  obtain ⟨halign, hrest⟩ := hkeeps.toAligned.over (hover y n) hms
    (P := fun z => c.isFaithful = true ∧ ∃ y' n' ts₂ rest', z = .expr (.ternary c y' n') ∧
      Reads [] .typed tail (.expr y') ts₂ ∧ Reads [] .typed (ts₂.drop 1) (.expr n') rest') fun hb => by
    have hcf : c.isFaithful = true := hkeeps.faithful (by simp [Stmt.incomplete, hlead.2]) hb
    have hcond := (c.readable hwc hrc hcf).condition hwc hlead tail
    cases hread with
    | choice hc' _ hy' hn' =>
      obtain ⟨hcc, htt⟩ := Reads.det (by simp) hc' hcond
      cases hcc
      cases htt
      exact ⟨_, hover _ _, .refl _, hcf, _, _, _, _, rfl, hy', hn'⟩
    | decided hd hq =>
      obtain ⟨-, rfl⟩ := Reads.det (by simp) hd hcond
      exact absurd rfl (hq _ rfl)
  refine ⟨halign, fun hi hb => ?_⟩
  obtain ⟨hcf, y', n', ts₂, rest', heq, hy', hn'⟩ := hrest hb
  cases heq
  have hi' : n.incomplete = true → k = [] := hi
  cases hyi : y.incomplete with
  | true =>
    -- nothing follows the question mark
    obtain rfl := hyn hyi
    have hnil : tail = [] := by rw [← htail, hyi, hi' rfl]; rfl
    rw [hnil] at hy'
    cases (Reads.det (by simp) hy' reads_typed_nil).1
    simp [Stmt.isFaithful, Expr.isFaithful, hcf]
  | false =>
    rw [hyi, if_neg (by decide), List.append_assoc, List.cons_append] at htail
    subst htail
    have hney := fun u hu => hne u (List.mem_append_right _ (List.mem_cons_of_mem _ hu))
    have hky := (Expr.Kept.placed hwy hy (f := .typed) hey.1 (Expr.nil_of_tokens_nil hwy (by simp [hyi])) hney hy').1
    have hyf : y.isFaithful = true := hky.faithful (by simp [Stmt.incomplete, hyi]) (.refl _)
    obtain ⟨-, rfl⟩ := Reads.det (by simp) hy' ((y.readable hwy hry hyf).yes hwy hey hyi _)
    have hnen := fun u hu => hney u (List.mem_append_right _ (List.mem_cons_of_mem _ hu))
    have hkn := (Expr.Kept.placed hwn hn (f := .typed) hon (Expr.nil_of_tokens_nil hwn hi') hnen hn').1
    have hnf : n.isFaithful = true := hkn.faithful hi' (.refl _)
    simp [Stmt.isFaithful, Expr.isFaithful, hcf, hyf, hnf, hyi]

/-! ## Statements -/

/-- The tightest form that reads such statements keeps the statement. -/
def Stmt.Kept : Stmt → Prop
  | .expr e => e.Kept
  | .output v => ∀ k s rest, (∀ t ∈ (Stmt.output v).tokens 1 ++ k, t.text ≠ []) →
      Reads [] .output ((Stmt.output v).tokens 1 ++ k) s rest → Keeps k (.output v) s
  | .ifThen c b => ∀ k s rest, (∀ t ∈ (Stmt.ifThen c b).tokens 1 ++ k, t.text ≠ []) →
      Reads [] .conditional ((Stmt.ifThen c b).tokens 1 ++ k) s rest → Keeps k (.ifThen c b) s
  | _ => True

theorem Expr.not_cutShort_of_level {e : Expr} (h : e.incomplete = true → 1 ≤ e.level) :
    (Stmt.expr e).isCutShort = false := by
  cases e with
  | assign t o v =>
    by_contra hc
    exact absurd (h (by simpa [Stmt.isCutShort, Expr.incomplete] using hc)) (by simp [Expr.level])
  | _ => rfl

section Operands

variable {x s : Stmt} {k rest : List Token} (h : x.Kept) (hw : x.WellFormed) (hk : x.tokens 0 = [] → k = [])

include h hw hk

theorem Stmt.Kept.shown (hx : x.isShown = true) (ho : x.Opens .conditional) (hne : ∀ t ∈ x.tokens 1 ++ k, t.text ≠ [])
    (hread : Reads [] .conditional (x.tokens 1 ++ k) s rest) :
    Keeps k x s ∧ (x.Begins s → x.isCutShort = false) := by
  cases x with
  | expr e =>
    have hlacks : Lacks .condition _ := Expr.lacks_placed (f := .conditional) hk ho rfl (by decide) (.inl rfl)
    have hplaced := Expr.Kept.placed hw h (f := .conditional) ho hk hne (hread.of_lacks_condition hlacks)
    exact ⟨hplaced.1, fun hb => Expr.not_cutShort_of_level (hplaced.2 hb)⟩
  | ifThen c b => exact ⟨h k s rest hne hread, fun _ => rfl⟩
  | output | comment | block => cases hx

theorem Stmt.Kept.operand (hx : x.isOperand = true) (ho : x.Opens .output) (hne : ∀ t ∈ x.tokens 1 ++ k, t.text ≠ [])
    (hread : Reads [] .output (x.tokens 1 ++ k) s rest) : Keeps k x s ∧ (x.Begins s → x.isCutShort = false) := by
  cases x with
  | expr e =>
    have hout : Lacks .output _ := Expr.lacks_placed (f := .output) hk ho rfl (by decide) (.inr rfl)
    have hif : Lacks .condition _ := Expr.lacks_placed (f := .output) hk ho rfl (by decide) (.inl rfl)
    have hplaced := Expr.Kept.placed hw h (f := .output) ho hk hne
      ((hread.of_lacks_output hout).of_lacks_condition hif)
    exact ⟨hplaced.1, fun hb => Expr.not_cutShort_of_level (hplaced.2 hb)⟩
  | output v => exact ⟨h k s rest hne hread, fun _ => rfl⟩
  | ifThen c b =>
    exact ⟨h k s rest hne (hread.of_lacks_output (by simp [Lacks, Stmt.tokens, word])), fun _ => rfl⟩
  | comment | block => cases hx

theorem Stmt.Kept.statement (hx : x.isOperand = true) (ho : x.Opens .statement)
    (hne : ∀ t ∈ x.tokens 0 ++ k, t.text ≠ []) (hread : Reads [] (.chain .assignment) (x.tokens 0 ++ k) s rest) :
    Keeps k x s := by
  cases x with
  | expr e => exact (Expr.Kept.placed hw h (f := .chain .assignment) ho hk hne hread).1
  | output v =>
    obtain ⟨m, k', hm, hms⟩ := hread.operand_begins
    exact (h k m k' hne hm).of_begins hms
  | ifThen c b =>
    obtain ⟨m, k', hm, hms⟩ := hread.operand_begins
    exact (h k m k' hne (Reads.of_lacks_output hm (by simp [Lacks, Stmt.tokens, word]))).of_begins hms
  | comment | block => cases hx

end Operands

theorem Stmt.nil_of_tokens_nil {s : Stmt} {k : List Token} (hw : s.WellFormed) (hk : s.incomplete = true → k = [])
    (h : s.tokens 0 = []) : k = [] := by
  cases s with
  | expr e => exact Expr.nil_of_tokens_nil hw hk h
  | block => exact hw.elim
  | _ => simp [Stmt.tokens] at h

theorem kept_assign {t v : Stmt} {o : Text} (hw : (Expr.assign t o v).WellFormed) (hr : (Expr.assign t o v).Regular)
    (ht : t.Kept) (hv : v.Kept) : (Expr.assign t o v).Kept := by
  intro k s rest _ hne hread
  obtain ⟨-, ⟨hst, hwt⟩, hsv, hwv⟩ := hw
  obtain ⟨hrt, hot, hit, -, hov⟩ := hr
  rw [Expr.tokens_assign, List.append_assoc, List.cons_append] at hne hread
  obtain ⟨m, k', hm, hms⟩ := Reads.operand_begins hread
  have hkeeps := (ht.operand hwt (Stmt.nil_of_tokens_nil hwt (by simp [hit])) hst hot hne hm).1
  have hbuild : Chain.assignment.build t o v = some (.expr (.assign t o v)) := rfl
  obtain ⟨halign, hvalue⟩ := hkeeps.toAligned.over (Chain.over_of_build hbuild) hms
    (P := fun y => t.isFaithful = true ∧ ∃ v' rest', Chain.assignment.build t o v' = some y ∧
      Reads [] .output (v.tokens Level.ternary ++ k) v' rest') fun hb => by
    have htf : t.isFaithful = true := hkeeps.faithful (by simp [hit]) hb
    obtain ⟨v', k', y, hv', hbuild, hy⟩ :=
      ((t.readable hwt hrt htf).target hwt hst hot hit o _).step_of_operator (by simp [Chain.isOperator, word]) hread
    exact ⟨y, Chain.over_of_build hbuild, hy, htf, v', k', hbuild, hv'⟩
  refine ⟨halign, fun hi hb => ?_⟩
  obtain ⟨htf, v', rest', hbuild', hv'⟩ := hvalue hb
  obtain rfl := Chain.build_inj hbuild' hbuild
  obtain ⟨hkv, hcut⟩ := hv.operand hwv (Stmt.nil_of_tokens_nil hwv hi) hsv hov
    (fun u hu => hne u (List.mem_append_right _ (List.mem_cons_of_mem _ hu))) hv'
  simp [Stmt.isFaithful, Expr.isFaithful, htf, hkv.faithful hi (.refl _), hcut (.refl _)]

theorem kept_output {v : Stmt} (hw : (Stmt.output v).WellFormed) (ho : v.Opens .conditional) (hv : v.Kept) :
    (Stmt.output v).Kept := by
  intro k s rest hne hread
  rw [Stmt.tokens, List.cons_append] at hne hread
  have hne' := fun u hu => hne u (List.mem_cons_of_mem _ hu)
  cases hread with
  | silent hl => exact absurd rfl (hl _ rfl)
  | @output _ _ _ v' _ hread =>
    have hfirst : ∀ v, (Stmt.output v).IsFirst := fun _ => rfl
    refine ⟨⟨(hfirst v).eq, fun text ht => ?_⟩, fun hi hb => ?_⟩
    · cases (hfirst v').eq ht
    · cases (hfirst v').eq hb
      obtain ⟨hkv, hcut⟩ := hv.shown hw.2 (Stmt.nil_of_tokens_nil hw.2 hi) hw.1 ho hne' hread
      simp [Stmt.isFaithful, hkv.faithful hi (.refl _), hcut (.refl _)]

theorem kept_ifThen {c : Expr} {b : List Stmt} (hw : c.WellFormed) (hr : c.Regular) (hlead : c.Leads (.chain .assignment))
    (hc : c.Kept)
    (hb : ∀ k rest, (∀ t ∈ Stmt.tokensAll b ++ word .closeBlock (utf8 "\x7d") :: k, t.text ≠ []) →
      Reads [] (.items true) (Stmt.tokensAll b ++ word .closeBlock (utf8 "\x7d") :: k) (.block b) rest →
      Stmt.areFaithful true false b = true) : (Stmt.ifThen c b).Kept := by
  intro k s rest hne hread
  rw [Stmt.tokens_ifThen_append] at hne hread
  have hne' := fun u hu => hne u (List.mem_cons_of_mem _ hu)
  -- the condition is on the left edge whether or not a body was read behind it
  obtain ⟨m, k', hm, hms⟩ : ∃ m k', Reads [] (.chain .assignment) (c.tokens Level.assignment ++
      word .openBlock (utf8 "\x7b") :: (Stmt.tokensAll b ++ word .closeBlock (utf8 "\x7d") :: k)) m k' ∧ m.Begins s := by
    cases hread with
    | ifThen _ hc' => exact ⟨_, _, hc', List.suffix_cons _ _⟩
    | marked _ hc' => exact ⟨_, _, hc', .refl _⟩
    | unmarked hl => exact absurd rfl (hl _ rfl)
  have hkeeps := (Expr.Kept.placed hw hc (f := .chain .assignment) hlead.1
    (Expr.nil_of_tokens_nil hw (by simp [hlead.2])) hne' hm).1
  have hover : ∀ b, (Stmt.ifThen c b).Over (.expr c) := fun _ => rfl
  obtain ⟨halign, hbody⟩ := hkeeps.toAligned.over (hover b) hms
    (P := fun y => c.isFaithful = true ∧ ∃ b' rest', y = .ifThen c b' ∧
      Reads [] (.items true) (Stmt.tokensAll b ++ word .closeBlock (utf8 "\x7d") :: k) (.block b') rest') fun hbegins => by
    have hcf : c.isFaithful = true := hkeeps.faithful (by simp [Stmt.incomplete, hlead.2]) hbegins
    have hcond := (c.readable hw hr hcf).guard hw hlead
      (Stmt.tokensAll b ++ word .closeBlock (utf8 "\x7d") :: k)
    cases hread with
    | ifThen _ hc' _ hb' =>
      obtain ⟨hcc, htt⟩ := Reads.det (by simp) hc' hcond
      cases hcc
      cases htt
      exact ⟨_, hover _, .refl _, hcf, _, _, rfl, hb'⟩
    | marked _ hc' hl =>
      obtain ⟨-, rfl⟩ := Reads.det (by simp) hc' hcond
      exact absurd rfl (hl _ rfl)
    | unmarked hl => exact absurd rfl (hl _ rfl)
  refine ⟨halign, fun _ hbegins => ?_⟩
  obtain ⟨hcf, b', rest', heq, hb'⟩ := hbody hbegins
  cases heq
  have hbf := hb k rest' (fun u hu => hne' u (List.mem_append_right _ (List.mem_cons_of_mem _ hu))) hb'
  simp [Stmt.isFaithful, hcf, hbf]

end Jolt
