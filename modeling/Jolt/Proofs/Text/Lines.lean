import Jolt.Text

/-!
# Lines

A text has one line more than it has line feeds (`Text.length_splitOn`), and its last line is what follows the last of
them (`Text.splitOn_eq_concat`). Joining two texts joins the last line of the first with the first line of the second
(`Text.lines_append`); a line feed between them keeps these lines apart (`Text.splitOn_append`). Nothing is lost: the lines
with line feeds between them are the text again (`Text.joinWith_splitOn`).
-/

namespace Jolt.Text

section SplitOn

variable {b c : UInt8} {t p : Text} {ps : List Text}

theorem splitOn_ne_nil (b : UInt8) (t : Text) : splitOn b t ≠ [] := by
  induction t with
  | nil => exact List.cons_ne_nil _ _
  | cons c r ih =>
    unfold splitOn
    split
    · exact List.cons_ne_nil _ _
    · split <;> exact List.cons_ne_nil _ _

theorem splitOn_cons_self (b : UInt8) (t : Text) : splitOn b (b :: t) = [] :: splitOn b t := by
  rw [splitOn, if_pos rfl]

theorem splitOn_cons_of_ne (hc : c ≠ b) (h : splitOn b t = p :: ps) : splitOn b (c :: t) = (c :: p) :: ps := by
  rw [splitOn, if_neg hc, h]

/-- Without a cut there is one piece. -/
theorem splitOn_of_not_mem (h : b ∉ t) : splitOn b t = [t] := by
  induction t with
  | nil => rfl
  | cons c r ih =>
    rw [List.mem_cons, not_or] at h
    exact splitOn_cons_of_ne (Ne.symm h.1) (ih h.2)

theorem not_mem_of_mem_splitOn (h : p ∈ splitOn b t) : b ∉ p := by
  induction t generalizing p with
  | nil =>
    rw [splitOn, List.mem_singleton] at h
    simp [h]
  | cons c t ih =>
    obtain ⟨q, qs, ht⟩ := List.exists_cons_of_ne_nil (splitOn_ne_nil b t)
    by_cases hc : c = b
    · subst hc
      rw [splitOn_cons_self] at h
      rcases List.mem_cons.1 h with rfl | h
      · exact List.not_mem_nil
      · exact ih h
    · rw [splitOn_cons_of_ne hc ht] at h
      rcases List.mem_cons.1 h with rfl | h
      · exact List.not_mem_cons_of_ne_of_not_mem (Ne.symm hc) (ih (by rw [ht]; exact List.mem_cons_self))
      · exact ih (by rw [ht]; exact List.mem_cons_of_mem q h)

/-- The pieces before a cut and those after it. -/
theorem splitOn_append (b : UInt8) (t r : Text) : splitOn b (t ++ b :: r) = splitOn b t ++ splitOn b r := by
  induction t with
  | nil => exact splitOn_cons_self b r
  | cons c t ih =>
    rw [List.cons_append, splitOn, splitOn, ih]
    split
    · rfl
    · cases h : splitOn b t with
      | nil => exact absurd h (splitOn_ne_nil b t)
      | cons p ps => rfl

theorem length_splitOn (b : UInt8) (t : Text) : (splitOn b t).length = t.count b + 1 := by
  induction t with
  | nil => rfl
  | cons c t ih =>
    by_cases hc : c = b
    · subst hc
      rw [splitOn_cons_self, List.length_cons, ih, List.count_cons_self]
    · obtain ⟨q, qs, ht⟩ := List.exists_cons_of_ne_nil (splitOn_ne_nil b t)
      rw [splitOn_cons_of_ne hc ht, List.count_cons_of_ne hc, ← ih, ht]
      rfl

/-- The pieces with cuts between them are the text. -/
theorem joinWith_splitOn (b : UInt8) (t : Text) : joinWith [b] (splitOn b t) = t := by
  unfold joinWith
  induction t with
  | nil => rfl
  | cons c t ih =>
    obtain ⟨p, ps, ht⟩ := List.exists_cons_of_ne_nil (splitOn_ne_nil b t)
    by_cases hc : c = b
    · subst hc
      rw [splitOn_cons_self, List.intercalate_cons_of_ne_nil (splitOn_ne_nil c t), ih]
      rfl
    · rw [splitOn_cons_of_ne hc ht]
      rw [ht] at ih
      cases ps with
      | nil => simpa using ih
      | cons q qs =>
        rw [List.intercalate_cons_cons] at ih ⊢
        simpa using ih

/-- The last piece is what follows the last cut, or the whole text. -/
theorem splitOn_eq_concat {init : List Text} {last : Text} (h : splitOn b t = init ++ [last]) :
    b ∉ last ∧ ∃ above, t = above ++ last ∧ (above = [] ∨ above.getLast? = some b) := by
  have hlast : b ∉ last := not_mem_of_mem_splitOn (by rw [h]; exact List.mem_append_right init List.mem_cons_self)
  refine ⟨hlast, ?_⟩
  by_cases hb : b ∈ t
  · -- cut at the last `b`: what follows it is one piece, so it is the last one
    obtain ⟨u, v, rfl, hv⟩ : ∃ u v, t = u ++ b :: v ∧ b ∉ v := by
      obtain ⟨v, u, hrev, hv⟩ := List.eq_append_cons_of_mem (List.mem_reverse.2 hb)
      refine ⟨u.reverse, v.reverse, ?_, by simpa using hv⟩
      rw [← List.reverse_reverse t, hrev]
      simp
    rw [splitOn_append, splitOn_of_not_mem hv] at h
    obtain ⟨-, hvlast⟩ := List.append_inj' h rfl
    obtain rfl : v = last := by simpa using hvlast
    exact ⟨u ++ [b], by simp, .inr (by simp)⟩
  · rw [splitOn_of_not_mem hb, ← List.nil_append [t]] at h
    obtain ⟨-, htlast⟩ := List.append_inj' h rfl
    obtain rfl : t = last := by simpa using htlast
    exact ⟨[], rfl, .inl rfl⟩

end SplitOn

/-- Two texts side by side: the last line of the first goes on with the first line of the second. -/
theorem lines_append (a b : Text) : ∃ init last first more, a.lines = init ++ [last] ∧ b.lines = first :: more ∧
    (a ++ b).lines = init ++ (last ++ first) :: more := by
  obtain ⟨first, more, hb⟩ := List.exists_cons_of_ne_nil (splitOn_ne_nil Byte.lineFeed b)
  suffices h : ∃ init last, a.lines = init ++ [last] ∧ (a ++ b).lines = init ++ (last ++ first) :: more by
    obtain ⟨init, last, ha, hab⟩ := h
    exact ⟨init, last, first, more, ha, hb, hab⟩
  induction a with
  | nil => exact ⟨[], [], rfl, hb⟩
  | cons c a ih =>
    obtain ⟨init, last, ha, hab⟩ := ih
    by_cases hc : c = Byte.lineFeed
    · subst hc
      refine ⟨[] :: init, last, ?_, ?_⟩
      · rw [lines, splitOn_cons_self]
        exact congrArg _ ha
      · rw [List.cons_append, lines, splitOn_cons_self]
        exact congrArg _ hab
    · cases init with
      | nil => exact ⟨[], c :: last, splitOn_cons_of_ne hc ha, splitOn_cons_of_ne hc hab⟩
      | cons p init => exact ⟨(c :: p) :: init, last, splitOn_cons_of_ne hc ha, splitOn_cons_of_ne hc hab⟩

end Jolt.Text
