import Jolt.Proofs.Text.Lines
import Jolt.Proofs.Token.Spans

/-!
# The places of tokens

The line of a place is the number of lines of the text up to it, and its column is one more than the length of the last
of them (`Position.advance_start`). Every token of a source stands where the text before it ends (`Token.exists_before`).
So it stands in the line of its number, behind as many bytes as its column says (`Token.exists_line`).

Main statement (`Token.position_counts`): the line of a token counts the line feeds before its offset, and its column the
bytes behind the last of them.
-/

namespace Jolt

namespace Position

theorem advance_cons (p : Position) (b : UInt8) (t : Text) : p.advance (b :: t) = (p.after b).advance t :=
  rfl

theorem after_of_ne {b : UInt8} (h : b ≠ Byte.lineFeed) (p : Position) :
    p.after b = ⟨p.offset + 1, p.line, p.column + 1⟩ :=
  if_neg h

/-- A text without line feeds moves the column, one with line feeds starts it anew. -/
theorem advance_lines (t : Text) (p : Position) : ∃ init last, t.lines = init ++ [last] ∧
    (p.advance t).line = p.line + init.length ∧
    (p.advance t).column = (if init = [] then p.column else 1) + last.length := by
  induction t generalizing p with
  | nil => exact ⟨[], [], rfl, by simp [advance], by simp [advance]⟩
  | cons b t ih =>
    obtain ⟨init, last, ht, hline, hcolumn⟩ := ih (p.after b)
    rw [advance_cons, hline, hcolumn]
    by_cases hb : b = Byte.lineFeed
    · subst hb
      refine ⟨[] :: init, last, ?_, ?_, ?_⟩
      · rw [Text.lines, Text.splitOn_cons_self]
        exact congrArg _ ht
      · simp only [after, if_pos, List.length_cons]
        omega
      · simp [after]
    · rw [after_of_ne hb]
      cases init with
      | nil =>
        refine ⟨[], b :: last, Text.splitOn_cons_of_ne hb ht, rfl, ?_⟩
        simp only [if_pos, List.length_cons]
        omega
      | cons q init => exact ⟨(b :: q) :: init, last, Text.splitOn_cons_of_ne hb ht, rfl, rfl⟩

theorem advance_start {t : Text} {init : List Text} {last : Text} (h : t.lines = init ++ [last]) :
    (start.advance t).line = init.length + 1 ∧ (start.advance t).column = last.length + 1 := by
  obtain ⟨init', last', h', hline, hcolumn⟩ := advance_lines t start
  obtain ⟨rfl, hlast⟩ := List.append_inj' (h.symm.trans h') rfl
  obtain rfl : last = last' := by simpa using hlast
  rw [hline, hcolumn]
  simp only [start, ite_self]
  omega

end Position

namespace Token

/-- A token of a source is the end of the input, at the end, or it stands at a byte that is no blank, its first. -/
theorem exists_before {source : Text} {t : Token} (ht : t ∈ scan source) :
    ∃ before after, source = before ++ after ∧ t.position = Position.start.advance before ∧
      (t.kind = .endOfInput ∧ t.text = [] ∧ after = [] ∨
        ∃ c r rest, t.text = c :: r ∧ after = c :: rest ∧ Text.isBlank c = false) := by
  obtain ⟨ts, hs⟩ := exists_scans .start source
  have hscan : scan source = ts ++ [⟨[], .endOfInput, Position.start.advance source⟩] := hs.scanFrom_eq
  rw [hscan, List.mem_append, List.mem_singleton] at ht
  rcases ht with ht | rfl
  · obtain ⟨ts, us, rfl⟩ := List.append_of_mem ht
    obtain ⟨before, c, r, rest, hsource, -, hc, ht, -, -⟩ := hs.split
    exact ⟨before, c :: (r ++ rest), hsource, by rw [ht], .inr ⟨c, r, r ++ rest, by rw [ht], rfl, hc⟩⟩
  · exact ⟨source, [], (List.append_nil source).symm, rfl, .inl ⟨rfl, rfl, rfl⟩⟩

/-- The line in which a token of a source stands, cut at its column. -/
theorem exists_line {source : Text} {t : Token} (ht : t ∈ scan source) :
    ∃ (k : Nat) (left right : Text), t.position.line = k + 1 ∧ t.position.column = left.length + 1 ∧
      source.lines[k]? = some (left ++ right) ∧ right.head? = t.text.head? ∧ (t.text = [] → t.kind = .endOfInput) := by
  obtain ⟨before, after, rfl, hp, hstart⟩ := exists_before ht
  obtain ⟨init, last, first, more, hbefore, hafter, hlines⟩ := Text.lines_append before after
  obtain ⟨hline, hcolumn⟩ := Position.advance_start hbefore
  refine ⟨init.length, last, first, by rw [hp, hline], by rw [hp, hcolumn], ?_, ?_⟩
  · rw [hlines, List.getElem?_append_right (Nat.le_refl _), Nat.sub_self]
    rfl
  · rcases hstart with ⟨hkind, htext, rfl⟩ | ⟨c, r, rest, htext, rfl, hc⟩
    · cases hafter
      exact ⟨by rw [htext], fun _ => hkind⟩
    · -- a token does not start with a line feed, so the rest of its line starts with its first byte
      have hne : c ≠ Byte.lineFeed := by
        rintro rfl
        cases hc
      obtain ⟨p, ps, hrest⟩ := List.exists_cons_of_ne_nil (Text.splitOn_ne_nil Byte.lineFeed rest)
      rw [Text.lines, Text.splitOn_cons_of_ne hne hrest] at hafter
      cases hafter
      exact ⟨by rw [htext]; rfl, by simp [htext]⟩

/-- The line of a token is one more than the number of line feeds before it. Its column is one more than the number of
bytes between it and the last of these line feeds, or the start of the source. -/
theorem position_counts {source : Text} {t : Token} (ht : t ∈ scan source) :
    t.position.offset ≤ source.length ∧
      t.position.line = 1 + (source.take t.position.offset).count Byte.lineFeed ∧
      ∃ above left, source.take t.position.offset = above ++ left ∧
        (above = [] ∨ above.getLast? = some Byte.lineFeed) ∧ Byte.lineFeed ∉ left ∧
        t.position.column = 1 + left.length := by
  obtain ⟨before, after, rfl, hp, -⟩ := exists_before ht
  have hoffset : t.position.offset = before.length := by simp [hp, Position.start]
  obtain ⟨init, left, hlines⟩ : ∃ init left, before.lines = init ++ [left] := by
    obtain ⟨init, left, hlines, -⟩ := Position.advance_lines before .start
    exact ⟨init, left, hlines⟩
  obtain ⟨hline, hcolumn⟩ := Position.advance_start hlines
  obtain ⟨hleft, above, hbefore, habove⟩ := Text.splitOn_eq_concat hlines
  have hfeeds : before.count Byte.lineFeed = init.length := by
    have hlength := Text.length_splitOn Byte.lineFeed before
    rw [← Text.lines, hlines, List.length_append, List.length_singleton] at hlength
    omega
  rw [hoffset, List.take_left, hp, hline, hcolumn, hfeeds]
  refine ⟨by simp, by omega, above, left, hbefore, habove, hleft, by omega⟩

/-- The end of the input behind a string and a comment of two lines each. -/
theorem position_counts_end :
    (⟨[], .endOfInput, ⟨16, 3, 9⟩⟩ : Token) ∈ scan (utf8 "\"a\nb\"<c\nd> out x") ∧
      (16 ≤ (utf8 "\"a\nb\"<c\nd> out x").length ∧
        (3 : Int) = 1 + ((utf8 "\"a\nb\"<c\nd> out x").take 16).count Byte.lineFeed ∧
        ∃ above left, (utf8 "\"a\nb\"<c\nd> out x").take 16 = above ++ left ∧
          (above = [] ∨ above.getLast? = some Byte.lineFeed) ∧ Byte.lineFeed ∉ left ∧ (9 : Int) = 1 + left.length) := by
  have h : (⟨[], .endOfInput, ⟨16, 3, 9⟩⟩ : Token) ∈ scan (utf8 "\"a\nb\"<c\nd> out x") := by decide +kernel
  exact ⟨h, position_counts h⟩

end Token

end Jolt
