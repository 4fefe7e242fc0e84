import Jolt.Layout
import Jolt.Proofs.Grammar.Lexemes
import Jolt.Proofs.Grammar.Placeholders
import Jolt.Proofs.Token.Genuine

/-!
# Where the input ends

An empty placeholder stands where the input ended and an operand was expected. A form that has read one has read all
tokens, so nothing is read after it: it is in the last statement, and the path that leads to it takes at each node the
edge to what was read last (`Reads.endsIn`).

The layout asks whether a statement is incomplete by walking down that edge. It goes by the second value of a choice
alone; if the first value ran into the end of the input, the second is an empty placeholder itself.

Main statement (`parse_ended`): in the program of a source, empty placeholders are at the right edge of the last statement
and nowhere else, and a statement is incomplete exactly if it has one.
-/

namespace Jolt

open Grammar

/-! ## Paths -/

/-- The edges from a node of a tree to the nodes that it is made of. -/
inductive Edge where
  | shown
  | target
  | value
  | operand
  | left
  | right
  | condition
  | yes
  | no
  | guard
  | item (i : Nat)
deriving DecidableEq

/-- Whether something else of the node is always read after what the edge leads to. -/
def Edge.isInner : Edge → Bool
  | .target | .left | .condition | .guard | .item _ => true
  | _ => false

namespace Stmt

/-- The edge leads from the one node to the other. All nodes are statements; an expression is the statement it makes. -/
inductive Child : Stmt → Edge → Stmt → Prop
  | shown {s : Stmt} : Child (.output s) .shown s
  | target {t v : Stmt} {o : Text} : Child (.expr (.assign t o v)) .target t
  | value {t v : Stmt} {o : Text} : Child (.expr (.assign t o v)) .value v
  | operand {e : Expr} : Child (.expr (.typeOf e)) .operand (.expr e)
  | left {l r : Expr} {o : Text} : Child (.expr (.binary l o r)) .left (.expr l)
  | right {l r : Expr} {o : Text} : Child (.expr (.binary l o r)) .right (.expr r)
  | leftCompared {l r : Expr} {o : Text} : Child (.expr (.comparison l o r)) .left (.expr l)
  | rightCompared {l r : Expr} {o : Text} : Child (.expr (.comparison l o r)) .right (.expr r)
  | condition {c y n : Expr} : Child (.expr (.ternary c y n)) .condition (.expr c)
  | yes {c y n : Expr} : Child (.expr (.ternary c y n)) .yes (.expr y)
  | no {c y n : Expr} : Child (.expr (.ternary c y n)) .no (.expr n)
  | guard {c : Expr} {b : List Stmt} : Child (.ifThen c b) .guard (.expr c)
  | item {c : Expr} {b : List Stmt} {i : Nat} {s : Stmt} : b[i]? = some s → Child (.ifThen c b) (.item i) s
  | inBlock {b : List Stmt} {i : Nat} {s : Stmt} : b[i]? = some s → Child (.block b) (.item i) s

/-- The path leads from the one node to the other. -/
inductive Reaches : Stmt → List Edge → Stmt → Prop
  | here (s : Stmt) : Reaches s [] s
  | step {s x y : Stmt} {e : Edge} {path : List Edge} : s.Child e x → x.Reaches path y → Reaches s (e :: path) y

/-- The edge leads to what was read last of the node. The first value of a choice is that only where nothing was left for
the second. -/
def IsLast (s : Stmt) : Edge → Prop
  | .yes => ∃ c y, s = .expr (.ternary c y (.unrecognized []))
  | e => e.isInner = false

/-- The path leads from the one node to the other, and each of its edges to what was read last. -/
inductive EndsIn : Stmt → List Edge → Stmt → Prop
  | here (s : Stmt) : EndsIn s [] s
  | step {s x y : Stmt} {e : Edge} {path : List Edge} : s.Child e x → s.IsLast e → x.EndsIn path y →
      EndsIn s (e :: path) y

/-- The end of the input in the place of an operand. -/
abbrev ending : Stmt :=
  .expr (.unrecognized [])

section Paths

variable {s x y : Stmt} {e : Edge} {path more : List Edge}

theorem Reaches.append (h : s.Reaches path x) (h' : x.Reaches more y) : s.Reaches (path ++ more) y := by
  induction h with
  | here => exact h'
  | step hchild _ ih => exact .step hchild (ih h')

theorem placeholders_of_mem {b : List Stmt} (h : s ∈ b) : s.placeholders ⊆ Stmt.placeholdersAll b := by
  induction b with
  | nil => cases h
  | cons t b ih =>
    rw [Stmt.placeholdersAll]
    rcases List.mem_cons.1 h with rfl | h
    · exact List.subset_append_left _ _
    · exact List.subset_append_of_subset_right _ (ih h)

theorem Child.placeholders (h : s.Child e x) : x.placeholders ⊆ s.placeholders := by
  cases h with
  | shown | operand => exact List.Subset.refl _
  | target | left | leftCompared | guard => exact List.subset_append_left _ _
  | value | right | rightCompared | no => exact List.subset_append_right _ _
  | condition => exact List.subset_append_of_subset_left _ (List.subset_append_left _ _)
  | yes => exact List.subset_append_of_subset_left _ (List.subset_append_right _ _)
  | item hs => exact List.subset_append_of_subset_right _ (placeholders_of_mem (List.mem_of_getElem? hs))
  | inBlock hs => exact placeholders_of_mem (List.mem_of_getElem? hs)

theorem Reaches.placeholders (h : s.Reaches path y) : y.placeholders ⊆ s.placeholders := by
  induction h with
  | here => exact List.Subset.refl _
  | step hchild _ ih => exact List.Subset.trans ih hchild.placeholders

theorem Reaches.nil_mem_placeholders (h : s.Reaches path ending) : [] ∈ s.placeholders :=
  h.placeholders List.mem_cons_self

theorem EndsIn.not_isInner (h : s.EndsIn path y) : ∀ e ∈ path, e.isInner = false := by
  induction h with
  | here => simp
  | @step _ _ _ e _ _ hlast _ ih =>
    refine List.forall_mem_cons.2 ⟨?_, ih⟩
    cases e with
    | yes => rfl
    | _ => exact hlast

end Paths

end Stmt

/-! ## Incomplete statements -/

mutual

theorem Expr.exists_reaches (e : Expr) (h : e.incomplete = true) : ∃ path, (Stmt.expr e).Reaches path .ending := by
  cases e with
  | binary l o r =>
    obtain ⟨path, hp⟩ := r.exists_reaches h
    exact ⟨.right :: path, .step .right hp⟩
  | comparison l o r =>
    obtain ⟨path, hp⟩ := r.exists_reaches h
    exact ⟨.right :: path, .step .rightCompared hp⟩
  | ternary c y n =>
    obtain ⟨path, hp⟩ := n.exists_reaches h
    exact ⟨.no :: path, .step .no hp⟩
  | typeOf e =>
    obtain ⟨path, hp⟩ := e.exists_reaches h
    exact ⟨.operand :: path, .step .operand hp⟩
  | assign t o v =>
    obtain ⟨path, hp⟩ := v.exists_reaches h
    exact ⟨.value :: path, .step .value hp⟩
  | unrecognized text =>
    obtain rfl : text = [] := List.isEmpty_iff.1 h
    exact ⟨[], .here _⟩
  | _ => cases h

/-- A statement that is incomplete has an empty placeholder. -/
theorem Stmt.exists_reaches (s : Stmt) (h : s.incomplete = true) : ∃ path, s.Reaches path .ending := by
  cases s with
  | expr e => exact e.exists_reaches h
  | output v =>
    obtain ⟨path, hp⟩ := v.exists_reaches h
    exact ⟨.shown :: path, .step .shown hp⟩
  | _ => cases h

end

/-- A statement with an empty placeholder at its right edge is incomplete. -/
theorem Stmt.EndsIn.incomplete {s y : Stmt} {path : List Edge} (h : s.EndsIn path y) (hy : y.incomplete = true) :
    s.incomplete = true := by
  induction h with
  | here => exact hy
  | step hchild hlast _ ih =>
    cases hchild with
    | shown | value | operand | right | rightCompared | no => exact ih hy
    | yes =>
      obtain ⟨c, y, ht⟩ := hlast
      cases ht
      rfl
    | target | left | leftCompared | condition | guard | item | inBlock => cases hlast

/-! ## Readings -/

namespace Grammar

/-- Only the right operand of a chain is read last. -/
theorem Chain.child_build {c : Chain} {l r s x : Stmt} {o : Text} {e : Edge} (h : c.build l o r = some s)
    (hx : s.Child e x) : x = l ∨ x = r ∧ s.IsLast e := by
  rcases Chain.build_cases h with ⟨a, b, -, rfl, rfl, rfl⟩ | ⟨a, b, -, rfl, rfl, rfl⟩ | ⟨-, rfl⟩
  · cases hx with
    | left => exact .inl rfl
    | right => exact .inr ⟨rfl, rfl⟩
  · cases hx with
    | leftCompared => exact .inl rfl
    | rightCompared => exact .inr ⟨rfl, rfl⟩
  · cases hx with
    | target => exact .inl rfl
    | value => exact .inr ⟨rfl, rfl⟩

/-- A statement of a list is read by itself. If it has an empty placeholder it is the last one, and the list is no body. -/
theorem Reads.of_getElem? {inBody : Bool} {ts rest : List Token} {b : List Stmt}
    (h : Reads [] (.items inBody) ts (.block b) rest) (hts : ∀ t ∈ ts, t.text ≠ []) {i : Nat} {s : Stmt}
    (hs : b[i]? = some s) :
    (∃ us rest', Reads [] .statement us s rest' ∧ ∀ t ∈ us, t.text ≠ []) ∧
      ([] ∈ s.placeholders → inBody = false ∧ i + 1 = b.length) := by
  generalize hf : Form.items inBody = f at h
  generalize hb : Stmt.block b = t at h
  induction h generalizing b i with cases hf
  | close | finish =>
    cases hb
    simp at hs
  | skip _ _ ih => exact ih (fun t h => hts t (List.mem_cons_of_mem _ h)) hs rfl hb
  | @item _ _ _ _ _ _ more _ _ h₁ h₂ _ ih =>
    cases hb
    cases i with
    | zero =>
      obtain rfl := Option.some.inj hs
      refine ⟨⟨_, _, h₁, hts⟩, fun hnil => ?_⟩
      -- the statement took all tokens, so the list ends here
      rw [h₁.rest_of_placeholder hts hnil] at h₂
      cases h₂ with
      | finish => exact ⟨rfl, rfl⟩
    | succ i =>
      have hmore : more[i]? = some s := by simpa using hs
      obtain ⟨hread, hlast⟩ := ih (fun t h => hts t (h₁.suffix.subset ((skipEndOfLine_suffix _).subset h))) hmore rfl rfl
      refine ⟨hread, fun hnil => (hlast hnil).imp_right fun hi => ?_⟩
      rw [List.length_cons, ← hi]

/-- A path from what a form reads to an empty placeholder goes along its right edge. -/
theorem Reads.endsIn {f : Form} {ts rest : List Token} {s : Stmt} (h : Reads [] f ts s rest)
    (hts : ∀ t ∈ ts, t.text ≠ []) (hf : ∀ b, f ≠ .items b) {path : List Edge} (hp : s.Reaches path .ending) :
    s.EndsIn path .ending := by
  generalize hy : Stmt.ending = y at hp
  induction h generalizing path with
  | identifier | number | string | stray | atEnd | comment =>
    cases hp with
    | here => exact .here _
    | step hchild => cases hchild
  | group _ _ _ ih | marked _ _ _ ih => exact ih (fun t h => hts t (List.mem_cons_of_mem _ h)) (by simp) hp
  | @first c _ _ _ _ ih => exact ih hts (by cases c <;> simp [Chain.operand]) hp
  | done _ _ ih | untyped _ _ ih | decided _ _ ih | unmarked _ _ ih | silent _ _ ih | plain _ _ ih =>
    exact ih hts (by simp) hp
  | @join c _ _ _ _ _ _ _ h₁ _ _ hb _ ih =>
    cases hp with
    | here => exact .here _
    | step hchild htail =>
      subst hy
      rcases Chain.child_build hb hchild with rfl | ⟨rfl, hlast⟩
      · cases h₁.rest_of_placeholder hts htail.nil_mem_placeholders
      · refine .step hchild hlast (ih (fun t h => ?_) (by cases c <;> simp [Chain.operand]) htail)
        exact hts t (h₁.suffix.subset (List.mem_cons_of_mem _ h))
  | typeOf _ _ ih =>
    cases hp with
    | here => exact .here _
    | step hchild htail =>
      cases hchild with
      | operand => exact .step .operand rfl (ih (fun t h => hts t (List.mem_cons_of_mem _ h)) (by simp) htail)
  | choice h₁ _ h₂ h₃ _ ih₂ ih₃ =>
    have hts₁ := fun t h => hts t (h₁.suffix.subset (List.mem_cons_of_mem _ h))
    cases hp with
    | here => exact .here _
    | step hchild htail =>
      subst hy
      cases hchild with
      | condition => cases h₁.rest_of_placeholder hts htail.nil_mem_placeholders
      | yes =>
        -- the first value took all that was left
        rw [h₂.rest_of_placeholder hts₁ htail.nil_mem_placeholders] at h₃
        cases h₃.eq_of_nil rfl (by simp)
        exact .step .yes ⟨_, _, rfl⟩ (ih₂ hts₁ (by simp) htail)
      | no =>
        exact .step .no rfl (ih₃ (fun t h => hts₁ t (h₂.suffix.subset (List.mem_of_mem_drop h))) (by simp) htail)
  | ifThen _ h₁ _ h₂ =>
    have hts' := fun t h => hts t (List.mem_cons_of_mem _ h)
    cases hp with
    | here => exact .here _
    | step hchild htail =>
      subst hy
      cases hchild with
      | guard => cases h₁.rest_of_placeholder hts' htail.nil_mem_placeholders
      | item hs =>
        have hbody := (h₂.of_getElem? (fun t h => hts' t (h₁.suffix.subset (List.mem_cons_of_mem _ h))) hs).2
        cases (hbody htail.nil_mem_placeholders).1
  | output _ _ ih =>
    cases hp with
    | here => exact .here _
    | step hchild htail =>
      cases hchild with
      | shown => exact .step .shown rfl (ih (fun t h => hts t (List.mem_cons_of_mem _ h)) (by simp) htail)
  | close | finish | skip | item => exact absurd rfl (hf _)

end Grammar

/-! ## Programs -/

/-- What the end of the input leaves in the program of a source. -/
structure Program.Ended (p : Program) : Prop where
  /-- An empty placeholder is in the last statement, at the end of a path along its right edge. -/
  endsIn : ∀ (i : Nat) (s : Stmt) (path : List Edge), p[i]? = some s → s.Reaches path .ending →
    i + 1 = p.length ∧ s.EndsIn path .ending
  /-- There is none in a target, a left operand, a condition or a body. -/
  inner : ∀ s ∈ p, ∀ (path more : List Edge) (e : Edge) (x : Stmt), s.Reaches (path ++ [e]) x → e.isInner = true →
    ¬ x.Reaches more .ending
  incomplete_iff : ∀ s ∈ p, s.incomplete = true ↔ ∃ path, s.Reaches path .ending
  /-- The statements of a body, at any depth, are complete. -/
  body : ∀ s ∈ p, ∀ (path : List Edge) (c : Expr) (b : List Stmt), s.Reaches path (.ifThen c b) →
    ∀ x ∈ b, x.incomplete = false
  last : ∀ (i : Nat) (s : Stmt), p[i]? = some s → s.incomplete = true → i + 1 = p.length

/-- A program whose empty placeholders are at the right edge of its last statement. -/
theorem Program.Ended.of_endsIn {p : Program}
    (h : ∀ (i : Nat) (s : Stmt) (path : List Edge), p[i]? = some s → s.Reaches path .ending →
      i + 1 = p.length ∧ s.EndsIn path .ending) : p.Ended := by
  have hmem : ∀ s ∈ p, ∀ path, s.Reaches path .ending → s.EndsIn path .ending := by
    intro s hs path hp
    obtain ⟨i, hi⟩ := List.mem_iff_getElem?.1 hs
    exact (h i s path hi hp).2
  exact {
    endsIn := h
    inner := by
      intro s hs path more e x hx he hp
      have hinner := (hmem s hs _ (hx.append hp)).not_isInner e (by simp)
      rw [he] at hinner
      cases hinner
    incomplete_iff := fun s hs => ⟨s.exists_reaches, fun ⟨path, hp⟩ => (hmem s hs path hp).incomplete rfl⟩
    body := by
      intro s hs path c b hb x hx
      by_contra hi
      obtain ⟨more, hp⟩ := x.exists_reaches (by simpa using hi)
      obtain ⟨i, hi⟩ := List.mem_iff_getElem?.1 hx
      cases (hmem s hs _ (hb.append (.step (.item hi) hp))).not_isInner (.item i) (by simp)
    last := by
      intro i s hi hs
      obtain ⟨path, hp⟩ := s.exists_reaches hs
      exact (h i s path hi hp).1 }

/-- **Empty placeholders are at the right edge of a program.** -/
theorem parse_ended {source file : Text} {p : Program} (h : parse source file = .ok p) : p.Ended := by
  obtain ⟨ts, hs⟩ := Token.exists_scans .start source
  have hreads := (parse_eq_ok_iff hs).1 h
  refine .of_endsIn fun i s path hi hp => ?_
  obtain ⟨⟨us, rest, hread, hus⟩, hlast⟩ := hreads.of_getElem? hs.text_ne_nil hi
  exact ⟨(hlast hp.nil_mem_placeholders).2, hread.endsIn hus (by simp) hp⟩

/-- A body, and a choice whose first value runs into the end of the input. -/
theorem parse_ended_choice :
    parse (utf8 "if a \x7b b \x7d; out c ? d +") [] = .ok
        [.ifThen (.identifier (utf8 "a")) [.expr (.identifier (utf8 "b"))],
          .output (.expr (.ternary (.identifier (utf8 "c"))
            (.binary (.identifier (utf8 "d")) (utf8 "+") (.unrecognized [])) (.unrecognized [])))] ∧
      Program.Ended
        [.ifThen (.identifier (utf8 "a")) [.expr (.identifier (utf8 "b"))],
          .output (.expr (.ternary (.identifier (utf8 "c"))
            (.binary (.identifier (utf8 "d")) (utf8 "+") (.unrecognized [])) (.unrecognized [])))] := by
  have h : parse (utf8 "if a \x7b b \x7d; out c ? d +") [] = .ok
      [.ifThen (.identifier (utf8 "a")) [.expr (.identifier (utf8 "b"))],
        .output (.expr (.ternary (.identifier (utf8 "c"))
          (.binary (.identifier (utf8 "d")) (utf8 "+") (.unrecognized [])) (.unrecognized [])))] := by
    decide +kernel
  exact ⟨h, parse_ended h⟩

end Jolt
