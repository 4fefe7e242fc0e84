import Jolt.Tree
import Mathlib.Data.List.Infix

/-!
# The left edge of a tree

A reader builds an operator over the operand it has read, so what it has at any moment is on the left edge of what it will
return. The left edge is a list, from the tree down to its first leaf, and a tree begins with another if the edge of that
one is a suffix of its own.
-/

namespace Jolt

mutual

/-- An expression and all that it begins with. -/
def Expr.spine : Expr → List Stmt
  | .binary left operator right => .expr (.binary left operator right) :: left.spine
  | .comparison left operator right => .expr (.comparison left operator right) :: left.spine
  | .ternary condition yes no => .expr (.ternary condition yes no) :: condition.spine
  | .assign target operator value => .expr (.assign target operator value) :: target.spine
  | e => [.expr e]

/-- A statement and all that it begins with. The condition of a body may be all that is kept of it. -/
def Stmt.spine : Stmt → List Stmt
  | .expr e => e.spine
  | .ifThen condition body => .ifThen condition body :: condition.spine
  | s => [s]

end

namespace Stmt

variable {a b l r s x y : Stmt}

theorem spine_eq (s : Stmt) : s.spine = s :: s.spine.tail := by
  cases s with
  | expr e => cases e <;> simp [Stmt.spine, Expr.spine]
  | _ => simp [Stmt.spine]

theorem eq_of_spine (h : a.spine = b.spine) : a = b := by
  rw [a.spine_eq, b.spine_eq] at h
  exact (List.cons.inj h).1

/-- The tree `s` begins with the tree `a`. -/
def Begins (a s : Stmt) : Prop :=
  a.spine <:+ s.spine

theorem Begins.refl (s : Stmt) : s.Begins s :=
  List.suffix_refl _

theorem Begins.trans (h : a.Begins b) (h' : b.Begins s) : a.Begins s :=
  List.IsSuffix.trans h h'

theorem Begins.total (ha : a.Begins s) (hb : b.Begins s) : a.Begins b ∨ b.Begins a :=
  List.suffix_or_suffix_of_suffix ha hb

theorem Begins.antisymm (h : a.Begins b) (h' : b.Begins a) : a = b :=
  eq_of_spine (h.eq_of_length_le h'.length_le)

/-- The tree `x` is built over the tree `l`. -/
def Over (x l : Stmt) : Prop :=
  x.spine = x :: l.spine

theorem Over.begins (h : x.Over l) : l.Begins x := by
  rw [Begins, h]
  exact List.suffix_cons _ _

theorem Over.not_begins (h : x.Over l) : ¬ x.Begins l := by
  intro hx
  have := hx.length_le
  rw [h, List.length_cons] at this
  omega

theorem Over.eq_or_begins (h : x.Over l) (ha : a.Begins x) : a = x ∨ a.Begins l := by
  rw [Begins, h] at ha
  rcases List.suffix_cons_iff.1 ha with ha | ha
  · exact .inl (eq_of_spine (ha.trans h.symm))
  · exact .inr ha

theorem Over.unique (hx : x.Over l) (hy : y.Over l) (h : x.Begins s) (h' : y.Begins s) : x = y := by
  rcases h.total h' with h | h
  · exact (hy.eq_or_begins h).resolve_right hx.not_begins
  · exact ((hx.eq_or_begins h).resolve_right hy.not_begins).symm

/-- A tree that is built over nothing. -/
def IsFirst (s : Stmt) : Prop :=
  s.spine = [s]

theorem IsFirst.eq (h : x.IsFirst) (ha : a.Begins x) : a = x := by
  rw [Begins, h, a.spine_eq] at ha
  rcases List.suffix_cons_iff.1 ha with ha | ha
  · exact (List.cons.inj ha).1
  · simp at ha

/-- All that a tree begins with begins with the same first tree. -/
theorem IsFirst.begins (h : x.IsFirst) (hx : x.Begins s) (ha : a.Begins s) : x.Begins a := by
  rcases hx.total ha with hxa | hax
  · exact hxa
  · rw [h.eq hax]
    exact Begins.refl x

/-- A tree `s` that goes on to the one built over `l` whenever it is comparable with `l` does not stop short of any tree
built over `l`, and if it reaches one then it is that one. -/
theorem Over.reaches {P : Stmt → Prop} (hx : x.Over l)
    (hs : l.Begins s ∨ s.Begins l → ∃ y, y.Over l ∧ y.Begins s ∧ P y) :
    (s.Begins x → s = x) ∧ (x.Begins s → P x) := by
  constructor
  · intro h
    refine (hx.eq_or_begins h).resolve_right fun hl => ?_
    obtain ⟨y, hy, hys, -⟩ := hs (.inr hl)
    exact hy.not_begins (hys.trans hl)
  · intro h
    obtain ⟨y, hy, hys, hP⟩ := hs (.inl (hx.begins.trans h))
    rwa [hx.unique hy h hys]

end Stmt

end Jolt
