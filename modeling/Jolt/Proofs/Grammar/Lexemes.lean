import Jolt.Proofs.Grammar.Complete
import Jolt.Proofs.Token.Spans

/-!
# Trees and the lexemes of a source

The rules see the kinds and the texts of tokens and not their places: tokens with the same lexemes are read as the same
tree (`Reads.transfer`). A source parses to what its tokens are read as (`parse_eq_ok_iff`).
-/

namespace Jolt.Grammar

open Token (Kind)

/-- What the rules see of a token. -/
def lexeme (t : Token) : Kind × Text :=
  (t.kind, t.text)

theorem map_lexeme_eq_cons {t : Token} {ts us : List Token} (h : us.map lexeme = (t :: ts).map lexeme) :
    ∃ u us', us = u :: us' ∧ u.kind = t.kind ∧ u.text = t.text ∧ us'.map lexeme = ts.map lexeme := by
  obtain ⟨u, us', rfl, hu, hus⟩ := List.map_eq_cons_iff.1 h
  simp only [lexeme, Prod.mk.injEq] at hu
  exact ⟨u, us', rfl, hu.1, hu.2, hus⟩

theorem Lacks.transfer {kind : Kind} {ts us : List Token} (h : Lacks kind ts) (hu : us.map lexeme = ts.map lexeme) :
    Lacks kind us := by
  cases us with
  | nil => simp [Lacks]
  | cons u us =>
    obtain ⟨t, ts, rfl, ht, -⟩ := map_lexeme_eq_cons hu.symm
    simpa [Lacks, ← ht] using h

theorem Chain.isOperator_transfer {c : Chain} {t u : Token} (hk : u.kind = t.kind) (ht : u.text = t.text) :
    c.isOperator u = c.isOperator t := by
  cases c <;> simp [isOperator, isProduct, isSum, hk, ht]

theorem Chain.Ends.transfer {c : Chain} {ts us : List Token} (h : c.Ends ts) (hu : us.map lexeme = ts.map lexeme) :
    c.Ends us := by
  cases us with
  | nil => simp [Ends]
  | cons u us =>
    obtain ⟨t, ts, rfl, hk, ht, -⟩ := map_lexeme_eq_cons hu.symm
    simpa [Ends, ← isOperator_transfer hk ht] using h

theorem map_lexeme_skipEndOfLine {ts us : List Token} (h : us.map lexeme = ts.map lexeme) :
    (skipEndOfLine us).map lexeme = (skipEndOfLine ts).map lexeme := by
  cases us with
  | nil => cases ts <;> simp_all
  | cons u us =>
    obtain ⟨t, ts, rfl, hk, ht, hts⟩ := map_lexeme_eq_cons h.symm
    by_cases he : t.kind = .endOfLine
    · simp [skipEndOfLine, accept, he, ← hk, hts]
    · simpa [skipEndOfLine, accept, he, ← hk] using h

/-- Tokens of the same kinds and texts are read as the same tree. -/
theorem Reads.transfer {ending : Text} {f : Form} {ts rest : List Token} {s : Stmt} (h : Reads ending f ts s rest) :
    ∀ us : List Token, us.map lexeme = ts.map lexeme →
      ∃ rest', rest'.map lexeme = rest.map lexeme ∧ Reads ending f us s rest' := by
  induction h with
  | identifier hk =>
    intro us hu
    obtain ⟨u, us, rfl, hk', ht, hu⟩ := map_lexeme_eq_cons hu
    exact ⟨us, hu, ht ▸ .identifier (hk'.trans hk)⟩
  | number hk hx =>
    intro us hu
    obtain ⟨u, us, rfl, hk', ht, hu⟩ := map_lexeme_eq_cons hu
    exact ⟨us, hu, .number (hk'.trans hk) (ht ▸ hx)⟩
  | string hk hx =>
    intro us hu
    obtain ⟨u, us, rfl, hk', ht, hu⟩ := map_lexeme_eq_cons hu
    exact ⟨us, hu, .string (hk'.trans hk) (ht ▸ hx)⟩
  | group hk _ hc ih =>
    intro us hu
    obtain ⟨u, us, rfl, hk', -, hu⟩ := map_lexeme_eq_cons hu
    obtain ⟨rest', hr, h⟩ := ih us hu
    obtain ⟨v, rest', rfl, hv, -, hr⟩ := map_lexeme_eq_cons hr
    exact ⟨rest', hr, .group (hk'.trans hk) h (hv.trans hc)⟩
  | stray hk =>
    intro us hu
    obtain ⟨u, us, rfl, hk', ht, hu⟩ := map_lexeme_eq_cons hu
    exact ⟨us, hu, ht ▸ .stray (hk' ▸ hk)⟩
  | atEnd =>
    intro us hu
    obtain rfl : us = [] := by simpa using hu
    exact ⟨[], rfl, .atEnd⟩
  | first _ ih =>
    intro us hu
    obtain ⟨rest', hr, h⟩ := ih us hu
    exact ⟨rest', hr, .first h⟩
  | join _ ho _ hb ih₁ ih₂ =>
    intro us hu
    obtain ⟨mid, hm, h₁⟩ := ih₁ us hu
    obtain ⟨v, mid, rfl, hk, ht, hm⟩ := map_lexeme_eq_cons hm
    obtain ⟨rest', hr, h₂⟩ := ih₂ mid hm
    exact ⟨rest', hr, .join h₁ ((Chain.isOperator_transfer hk ht).trans ho) h₂ (ht ▸ hb)⟩
  | done _ he ih =>
    intro us hu
    obtain ⟨rest', hr, h⟩ := ih us hu
    exact ⟨rest', hr, .done h (he.transfer hr)⟩
  | typeOf hk _ ih =>
    intro us hu
    obtain ⟨u, us, rfl, hk', -, hu⟩ := map_lexeme_eq_cons hu
    obtain ⟨rest', hr, h⟩ := ih us hu
    exact ⟨rest', hr, .typeOf (hk'.trans hk) h⟩
  | untyped hl _ ih =>
    intro us hu
    obtain ⟨rest', hr, h⟩ := ih us hu
    exact ⟨rest', hr, .untyped (hl.transfer hu) h⟩
  | @choice t ts ts₁ ts₂ rest c y n _ hq _ _ ih₁ ih₂ ih₃ =>
    intro us hu
    obtain ⟨us₁, h₁, hc⟩ := ih₁ us hu
    obtain ⟨v, us₁, rfl, hv, -, h₁⟩ := map_lexeme_eq_cons h₁
    obtain ⟨us₂, h₂, hy⟩ := ih₂ us₁ h₁
    obtain ⟨rest', hr, hn⟩ := ih₃ (us₂.drop 1) (by rw [List.map_drop, h₂, List.map_drop])
    exact ⟨rest', hr, .choice hc (hv.trans hq) hy hn⟩
  | decided _ hl ih =>
    intro us hu
    obtain ⟨rest', hr, h⟩ := ih us hu
    exact ⟨rest', hr, .decided h (hl.transfer hr)⟩
  | ifThen hk _ ho _ ih₁ ih₂ =>
    intro us hu
    obtain ⟨u, us, rfl, hk', -, hu⟩ := map_lexeme_eq_cons hu
    obtain ⟨us₁, h₁, hc⟩ := ih₁ us hu
    obtain ⟨v, us₁, rfl, hv, -, h₁⟩ := map_lexeme_eq_cons h₁
    obtain ⟨rest', hr, hb⟩ := ih₂ us₁ h₁
    exact ⟨rest', hr, .ifThen (hk'.trans hk) hc (hv.trans ho) hb⟩
  | marked hk _ hl ih =>
    intro us hu
    obtain ⟨u, us, rfl, hk', -, hu⟩ := map_lexeme_eq_cons hu
    obtain ⟨rest', hr, h⟩ := ih us hu
    exact ⟨rest', hr, .marked (hk'.trans hk) h (hl.transfer hr)⟩
  | unmarked hl _ ih =>
    intro us hu
    obtain ⟨rest', hr, h⟩ := ih us hu
    exact ⟨rest', hr, .unmarked (hl.transfer hu) h⟩
  | output hk _ ih =>
    intro us hu
    obtain ⟨u, us, rfl, hk', -, hu⟩ := map_lexeme_eq_cons hu
    obtain ⟨rest', hr, h⟩ := ih us hu
    exact ⟨rest', hr, .output (hk'.trans hk) h⟩
  | silent hl _ ih =>
    intro us hu
    obtain ⟨rest', hr, h⟩ := ih us hu
    exact ⟨rest', hr, .silent (hl.transfer hu) h⟩
  | comment hk =>
    intro us hu
    obtain ⟨u, us, rfl, hk', ht, hu⟩ := map_lexeme_eq_cons hu
    exact ⟨us, hu, ht ▸ .comment (hk'.trans hk)⟩
  | plain hl _ ih =>
    intro us hu
    obtain ⟨rest', hr, h⟩ := ih us hu
    exact ⟨rest', hr, .plain (hl.transfer hu) h⟩
  | close hk =>
    intro us hu
    obtain ⟨u, us, rfl, hk', -, hu⟩ := map_lexeme_eq_cons hu
    exact ⟨us, hu, .close (hk'.trans hk)⟩
  | finish =>
    intro us hu
    obtain rfl : us = [] := by simpa using hu
    exact ⟨[], rfl, .finish⟩
  | skip hk _ ih =>
    intro us hu
    obtain ⟨u, us, rfl, hk', -, hu⟩ := map_lexeme_eq_cons hu
    obtain ⟨rest', hr, h⟩ := ih us hu
    exact ⟨rest', hr, .skip (hk'.trans hk) h⟩
  | item he hc _ _ ih₁ ih₂ =>
    intro us hu
    obtain ⟨us₁, h₁, hs⟩ := ih₁ us hu
    obtain ⟨u, us, rfl, hk, -, hu⟩ := map_lexeme_eq_cons hu
    obtain ⟨rest', hr, hm⟩ := ih₂ _ (map_lexeme_skipEndOfLine h₁)
    exact ⟨rest', hr, .item (hk ▸ he) (hk ▸ hc) hs hm⟩

/-- A source parses to what its tokens are read as. -/
theorem parse_eq_ok_iff {source file : Text} {p : Program} {ts : List Token} (hs : Token.Scans .start source ts) :
    parse source file = .ok p ↔ Reads [] (.items false) ts (.block p) [] := by
  have hne : ∀ t ∈ ts, t.isEnd = false := fun t ht => by simpa [Token.isEnd] using hs.kind_ne_end t ht
  have he : Token.scan source = ts ++ [⟨[], .endOfInput, Position.start.advance source⟩] := hs.scanFrom_eq
  have hw : (Token.scan source).takeWhile (!·.isEnd) = ts := by
    rw [he, List.takeWhile_append_of_pos (by simpa using hne)]
    simp [Token.isEnd]
  have hf : ((Token.scan source).find? (·.isEnd)).getD impliedStop = ⟨[], .endOfInput, Position.start.advance source⟩ := by
    rw [he, List.find?_append, List.find?_eq_none.2 (by simpa using hne)]
    simp [Token.isEnd]
  have hp : parse source file = .ok p ↔ program (Token.scan source) = .ok p := by
    unfold parse
    cases program (Token.scan source) <;> constructor <;> rintro ⟨⟩ <;> rfl
  rw [hp, program_eq_ok_iff, hw, hf]

/-- Where a text starts changes the places of its tokens only. -/
theorem map_lexeme_of_scans {p : Position} {t : Text} {ts : List Token} (h : Token.Scans p t ts) (q : Position) :
    ∃ us, Token.Scans q t us ∧ us.map lexeme = ts.map lexeme := by
  induction h generalizing q with
  | nil => exact ⟨[], .nil q, rfl⟩
  | blank hb _ ih =>
    obtain ⟨us, hs, hu⟩ := ih (q.after _)
    exact ⟨us, .blank hb hs, hu⟩
  | @token p c r rest kind ts hb hc _ ih =>
    obtain ⟨us, hs, hu⟩ := ih (q.advance (c :: r))
    exact ⟨_, .token hb hc hs, by simp [lexeme, hu]⟩

theorem unquote?_quoted (s : Text) : unquote? (utf8 "\"" ++ s ++ utf8 "\"") = some s := by
  have hq : utf8 "\"" = [Byte.quote] := rfl
  have hlast : ([Byte.quote] ++ s ++ [Byte.quote]).getLast? = some Byte.quote := List.getLast?_concat ..
  rw [hq, unquote?, if_pos ⟨by simp, hlast⟩]
  simp

theorem quote_mem_of_unquote? {t value : Text} (h : unquote? t = some value) : Byte.quote ∈ t.tail := by
  unfold unquote? at h
  split at h
  · rename_i hq
    obtain ⟨hlen, hlast⟩ := hq
    match t, hlen with
    | a :: b :: r, _ =>
      rw [List.getLast?_cons_cons] at hlast
      exact List.mem_of_getLast? hlast
  · cases h

instance decidableParse (source file : Text) (p : Program) : Decidable (parse source file = .ok p) :=
  match parse source file with
  | .ok q => decidable_of_iff (q = p) (by simp)
  | .error _ => isFalse (by simp)

end Jolt.Grammar
