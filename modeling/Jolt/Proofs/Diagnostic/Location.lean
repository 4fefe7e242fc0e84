import Jolt.Proofs.Grammar.Faults
import Jolt.Proofs.Number.ReadBack
import Jolt.Proofs.Token.Positions

/-!
# Where diagnostics point

A fault is at a token of the source (`Grammar.token_mem_of_program`), and a token stands in the line of its number
(`Token.exists_line`). So the diagnostic of a source that does not parse shows the line of a token, and the caret is below
the first byte of that token (`parse_error_located`).
-/

namespace Jolt

/-! ## The end of a diagnostic -/

namespace Diagnostic

theorem lineFeed_not_mem_gutter (d : Diagnostic) : Byte.lineFeed ∉ d.gutter := by
  have hnat : ∀ n, Byte.lineFeed ∉ Text.ofNat n := by
    intro n hmem
    have hdigit := Text.isDigit_of_mem_ofNat _ hmem
    cases hdigit
  have hint : Byte.lineFeed ∉ Text.ofInt d.line := by
    cases d.line with
    | ofNat n => exact hnat n
    | negSucc n => exact List.not_mem_cons_of_ne_of_not_mem (by decide) (hnat (n + 1))
  have hleft : Byte.lineFeed ∉ utf8 "  " := by decide
  have hright : Byte.lineFeed ∉ utf8 " | " := by decide
  simp only [gutter, List.mem_append, not_or]
  exact ⟨⟨hleft, hint⟩, hright⟩

/-- How far the caret is from the edge. -/
def indent (d : Diagnostic) : Nat :=
  d.gutter.length + (d.column - 1).toNat

/-- The text of a diagnostic with a source line ends with that line behind its gutter, and the caret. -/
theorem lines_render {d : Diagnostic} (hline : 0 < d.line) (hne : d.source ≠ []) (hs : Byte.lineFeed ∉ d.source) :
    ∃ above, d.render.lines = above ++ [d.gutter ++ d.source, Text.spaces d.indent ++ utf8 "^"] := by
  let above := d.category ++ utf8 ": " ++ d.message ++ d.place ++ utf8 "\n"
  have hempty : d.source.isEmpty = false := List.isEmpty_eq_false_iff.2 hne
  have hrender : d.render = above ++ Byte.lineFeed :: (d.gutter ++ d.source ++
      Byte.lineFeed :: (Text.spaces d.indent ++ utf8 "^")) := by
    have hfeed : utf8 "\n" = [Byte.lineFeed] := rfl
    have hfeeds : utf8 "\n\n" = [Byte.lineFeed, Byte.lineFeed] := rfl
    simp [render, hline, hempty, excerpt, above, indent, hfeed, hfeeds]
  have hecho : Byte.lineFeed ∉ d.gutter ++ d.source := by
    rw [List.mem_append, not_or]
    exact ⟨d.lineFeed_not_mem_gutter, hs⟩
  have hcaret : Byte.lineFeed ∉ Text.spaces d.indent ++ utf8 "^" := by
    rw [List.mem_append, not_or]
    refine ⟨fun hmem => ?_, by decide⟩
    cases List.eq_of_mem_replicate hmem
  refine ⟨Text.lines above, ?_⟩
  rw [hrender, Text.lines, Text.splitOn_append, Text.splitOn_append, Text.splitOn_of_not_mem hecho,
    Text.splitOn_of_not_mem hcaret]
  rfl

end Diagnostic

/-! ## Sources that do not parse -/

/-- A diagnostic points at a token of a source. -/
structure Diagnostic.PointsAt (d : Diagnostic) (text : Text) (t : Token) : Prop where
  line_eq : d.line = t.position.line
  column_eq : d.column = t.position.column
  line_mem : 1 ≤ d.line ∧ d.line ≤ text.lines.length
  /-- What is shown is the line of that number. -/
  shown : text.lines[(d.line - 1).toNat]? = some d.source
  column_mem : 1 ≤ d.column ∧ d.column ≤ d.source.length + 1
  /-- From the column on, the line starts with the first byte of the token. The end of the input is behind the line. -/
  starts : (∃ b r rest, t.text = b :: r ∧ d.source.drop (d.column - 1).toNat = b :: rest) ∨
    t.kind = .endOfInput ∧ d.column = d.source.length + 1
  /-- The text ends with the line behind its gutter, and the caret; above the caret is the first byte of the token, if
  it has one. -/
  caret : d.source ≠ [] →
    (∃ above, d.render.lines = above ++ [d.gutter ++ d.source, Text.spaces d.indent ++ utf8 "^"]) ∧
      (d.gutter ++ d.source)[d.indent]? = t.text.head?

theorem Fault.pointsAt {source : Text} {f : Fault} (h : f.token ∈ Token.scan source) (file : Text) :
    (f.diagnose file source.lines).PointsAt source f.token := by
  obtain ⟨k, left, right, hline, hcolumn, hmem, hhead, hend⟩ := Token.exists_line h
  have hk : k < source.lines.length := (List.getElem?_eq_some_iff.1 hmem).1
  have hindex : ((k : Int) + 1 - 1).toNat = k := by omega
  have hsource : (f.diagnose file source.lines).source = left ++ right := by
    rw [diagnose, hline, if_pos (by omega), hindex, List.getD_eq_getElem?_getD, hmem, Option.getD_some]
  have hcolumn' : (f.diagnose file source.lines).column = left.length + 1 := hcolumn
  have hindent : ((left.length : Int) + 1 - 1).toNat = left.length := by omega
  have hfeed : Byte.lineFeed ∉ left ++ right := Text.not_mem_of_mem_splitOn (List.mem_of_getElem? hmem)
  have hline' : (f.diagnose file source.lines).line = k + 1 := hline
  exact {
    line_eq := rfl
    column_eq := rfl
    line_mem := by rw [hline']; omega
    shown := by rw [hline', hindex, hmem, hsource]
    column_mem := by rw [hcolumn', hsource, List.length_append]; omega
    starts := by
      rw [hcolumn', hsource, hindent, List.drop_left]
      cases htext : f.token.text with
      | nil =>
        rw [htext] at hhead
        rw [List.head?_eq_none_iff.1 hhead, List.append_nil]
        exact .inr ⟨hend htext, rfl⟩
      | cons b r =>
        rw [htext] at hhead
        obtain ⟨rest, rfl⟩ := List.head?_eq_some_iff.1 hhead
        exact .inl ⟨b, r, rest, rfl, rfl⟩
    caret := by
      intro hne
      rw [hsource] at hne
      refine ⟨Diagnostic.lines_render (by rw [hline']; omega) (by rwa [hsource]) (by rwa [hsource]), ?_⟩
      rw [Diagnostic.indent, hcolumn', hindent, hsource, List.getElem?_append_right (Nat.le_add_right _ _),
        Nat.add_sub_cancel_left, List.getElem?_append_right (Nat.le_refl _), Nat.sub_self, ← List.head?_eq_getElem?,
        hhead] }

/-- The diagnostic of a source that does not parse points at one of its tokens. -/
theorem parse_error_located (source file : Text) (d : Diagnostic) (h : parse source file = .error d) :
    ∃ t ∈ Token.scan source, d.PointsAt source t := by
  obtain ⟨f, hf, rfl⟩ : ∃ f, Grammar.program (Token.scan source) = .error f ∧ f.diagnose file source.lines = d := by
    unfold parse at h
    cases hp : Grammar.program (Token.scan source) with
    | ok p =>
      rw [hp] at h
      cases h
    | error f =>
      rw [hp] at h
      exact ⟨f, rfl, Except.error.inj h⟩
  have hend : ∃ t ∈ Token.scan source, t.isEnd = true := by
    obtain ⟨ts, hs⟩ := Token.exists_scans .start source
    refine ⟨⟨[], .endOfInput, Position.start.advance source⟩, ?_, rfl⟩
    rw [Token.scan, hs.scanFrom_eq]
    exact List.mem_append_right ts List.mem_cons_self
  have hmem := Grammar.token_mem_of_program hend hf
  exact ⟨f.token, hmem, f.pointsAt hmem file⟩

/-- An `if` in parentheses, behind a string of two lines and a carriage return. -/
theorem parse_error_located_conditional : ∃ d,
    parse (utf8 "s = \"a\nb\";\r\n\tout (if x \x7b \x7d)") (utf8 "f") = .error d ∧ d.line = 3 ∧ d.column = 7 ∧
      ∃ t ∈ Token.scan (utf8 "s = \"a\nb\";\r\n\tout (if x \x7b \x7d)"),
        d.PointsAt (utf8 "s = \"a\nb\";\r\n\tout (if x \x7b \x7d)") t := by
  have h : parse (utf8 "s = \"a\nb\";\r\n\tout (if x \x7b \x7d)") (utf8 "f") = .error
      ⟨Diagnostic.syntaxError, utf8 "Expect expression (got 'if')", utf8 "f", 3, 7, utf8 "\tout (if x \x7b \x7d)"⟩ := by
    decide +kernel
  exact ⟨_, h, rfl, rfl, parse_error_located _ _ _ h⟩

end Jolt
