import Jolt.Proofs.Evaluation.Buffers
import Jolt.Proofs.Grammar.Lexemes
import Jolt.Proofs.Grammar.Placeholders
import Jolt.Proofs.Token.Join

/-!
# One source or two

Two sources can be given one after the other or as one, with a semicolon between them. The tokens are the same
(`Token.Scans.join`), so the statements are the same (`parse_join`), and the scope is handed on in the same way
(`Stmt.runAll_append`).
-/

namespace Jolt

open Token (Kind)

/-! ## A string that is not closed is the last token -/

theorem Token.Classified.eq_quote {c : UInt8} {r : Text} {n : Nat} (h : Classified c r .string n) : c = Byte.quote := by
  generalize hk : Kind.string = kind at h
  cases h with
  | string h => exact h
  | word =>
    rcases classifyWord_kind c r with h | h
    · simp [h] at hk
    · rcases keyword?_kind h with h | h | h <;> simp [h] at hk
  | single h =>
    subst hk
    unfold single? at h
    repeat' split at h
    all_goals cases h
  | number | comment | less | compound | arithmetic | greater | equality | assign | unknown => cases hk

theorem Token.Scans.unclosed {p : Position} {t : Text} {ts : List Token} (h : Scans p t ts) {v : Token} (hv : v ∈ ts)
    (hk : v.kind = .string) (hq : Byte.quote ∉ v.text.tail) : Grammar.Unclosed ts := by
  induction h with
  | nil => cases hv
  | blank _ _ ih => exact ih hv
  | @token p c r rest kind ts hb hc hs ih =>
    rcases List.mem_cons.1 hv with rfl | hv
    · -- no quote follows, so the string runs to the end of the text and no token comes after it
      have hkind : kind = .string := hk
      have hcl := classified c (r ++ rest)
      rw [hc, hkind] at hcl
      rw [hcl.eq_quote, classify_quote, Prod.mk.injEq] at hc
      have hnone : through? Byte.quote (r ++ rest) = none := by
        cases ht : through? Byte.quote (r ++ rest) with
        | none => rfl
        | some n =>
          rw [ht, Option.getD_some] at hc
          obtain ⟨u, rfl, -⟩ := through?_eq_length (ht.trans (congrArg some hc.2))
          exact absurd (by simp) hq
      rw [hnone, Option.getD_none, List.length_append] at hc
      obtain rfl : rest = [] := List.eq_nil_of_length_eq_zero (by omega)
      cases hs
      refine ⟨⟨c :: r, kind, p⟩, rfl, hk, Option.eq_none_iff_forall_ne_some.2 fun value hu => ?_⟩
      exact hq (Grammar.quote_mem_of_unquote? hu)
    · obtain ⟨w, hw, hbad⟩ := ih hv
      refine ⟨w, ?_, hbad⟩
      cases ts with
      | nil => cases hv
      | cons u ts => simpa [List.getLast?_cons_cons] using hw

/-! ## Joined sources -/

/-- Two sources with a semicolon between them are read as their statements in a row, unless the first runs into the end
of the input or the second closes a `<` of the first. -/
theorem parse_join {s₁ s₂ file : Text} {p₁ p₂ : Program} (h₁ : parse s₁ file = .ok p₁) (h₂ : parse s₂ file = .ok p₂)
    (hp : [] ∉ Stmt.placeholdersAll p₁) (hl : (∀ t ∈ Token.scan s₁, t.isLess = false) ∨ Byte.greater ∉ s₂) :
    parse (s₁ ++ utf8 ";" ++ s₂) file = .ok (p₁ ++ p₂) := by
  obtain ⟨ts, hts⟩ := Token.exists_scans .start s₁
  obtain ⟨us, hus⟩ := Token.exists_scans .start s₂
  have hr₁ := (Grammar.parse_eq_ok_iff hts).1 h₁
  have hr₂ := (Grammar.parse_eq_ok_iff hus).1 h₂
  let p := Position.start.advance s₁
  obtain ⟨us', hus', hlex⟩ := Grammar.map_lexeme_of_scans hus (p.advance (utf8 ";"))
  have hsemi : Token.Scans p (utf8 ";" ++ s₂) (⟨utf8 ";", .endOfLine, p⟩ :: us') :=
    Token.Scans.token (c := Byte.semicolon) (r := []) (by decide) (by rw [Token.classify_semicolon]; rfl) hus'
  have hjoin : Token.Scans .start (s₁ ++ (utf8 ";" ++ s₂)) (ts ++ ⟨utf8 ";", .endOfLine, p⟩ :: us') := by
    refine hts.join (Token.apart_cons.2 (by decide)) rfl (fun v hv hk => ?_) (hl.imp (fun hl v hv => ?_) fun hl => ?_) hsemi
    · apply Decidable.byContradiction
      intro hq
      obtain ⟨_, hlast, -⟩ := hr₁.unclosed hp (hts.unclosed hv hk hq)
      cases hlast
    · exact hl v (by rw [Token.scan, hts.scanFrom_eq]; simp [hv])
    · show Byte.greater ∉ Byte.semicolon :: s₂
      exact fun h => (List.mem_cons.1 h).elim (by decide) hl
  rw [List.append_assoc, Grammar.parse_eq_ok_iff hjoin]
  obtain ⟨rest, hrest, hr₂'⟩ := hr₂.transfer us' hlex
  obtain rfl : rest = [] := by simpa using hrest
  exact hr₁.append_items hp rfl hr₂'

theorem Stmt.runAll_append (p q : List Stmt) : Stmt.runAll (p ++ q) = do
    let results ← Stmt.runAll p
    let more ← Stmt.runAll q
    return results ++ more := by
  induction p with
  | nil => simp only [List.nil_append, Stmt.runAll, pure_bind, bind_pure]
  | cons s p ih => simp only [List.cons_append, Stmt.runAll, ih, bind_assoc, pure_bind, List.append_assoc]

theorem emit_of_parse {source file : Text} {p : Program} (h : parse source file = .ok p) :
    emit source file = Except.ok <$> Stmt.runAll p := by
  simp only [emit, h, Program.evaluate_eq_runAll, map_eq_pure_bind]

/-- To run two sources as one is to run them one after the other. -/
theorem emit_append {s₁ s₂ file : Text} {p₁ p₂ : Program} (h₁ : parse s₁ file = .ok p₁) (h₂ : parse s₂ file = .ok p₂)
    (hp : [] ∉ Stmt.placeholdersAll p₁) (hl : (∀ t ∈ Token.scan s₁, t.isLess = false) ∨ Byte.greater ∉ s₂) :
    emit (s₁ ++ utf8 ";" ++ s₂) file = do
      let r₁ ← emit s₁ file
      let r₂ ← emit s₂ file
      return (· ++ ·) <$> r₁ <*> r₂ := by
  rw [emit_of_parse (parse_join h₁ h₂ hp hl), emit_of_parse h₁, emit_of_parse h₂, Stmt.runAll_append]
  simp only [map_eq_pure_bind, bind_assoc, pure_bind]
  rfl

/-- Running two sources one after the other and running them as one give the same results and the same scope. Over a scope
without gaps both come to their end; over any other scope, if one ends early, the other does so too, and leaves the same
scope. -/
theorem emit_join (s₁ s₂ file : Text) (p₁ p₂ : Program) (h₁ : parse s₁ file = .ok p₁)
    (h₂ : parse s₂ file = .ok p₂) (hp : [] ∉ Stmt.placeholdersAll p₁)
    (hl : (∀ t ∈ Token.scan s₁, t.isLess = false) ∨ Byte.greater ∉ s₂) :
    (∀ scope : Scope, scope.Whole → ∃ r₁ r₂ between after, emit s₁ file scope = (some (.ok r₁), between) ∧
      emit s₂ file between = (some (.ok r₂), after) ∧
      emit (s₁ ++ utf8 ";" ++ s₂) file scope = (some (.ok (r₁ ++ r₂)), after)) ∧
    emit (s₁ ++ utf8 ";" ++ s₂) file = do
      let r₁ ← emit s₁ file
      let r₂ ← emit s₂ file
      return (· ++ ·) <$> r₁ <*> r₂ := by
  have hjoin := emit_append h₁ h₂ hp hl
  refine ⟨fun scope hscope => ?_, hjoin⟩
  obtain ⟨r₁, between, hr₁, -, hbetween⟩ := exists_emit h₁ hscope
  obtain ⟨r₂, after, hr₂, -, -⟩ := exists_emit h₂ hbetween
  refine ⟨r₁, r₂, between, after, hr₁, hr₂, ?_⟩
  rw [hjoin, Run.bind_of_some hr₁, Run.bind_of_some hr₂]
  rfl

/-- A first source with a `<` that stays open, and a second that changes its variable. -/
theorem emit_join_open_less :
    let scope := Scope.empty.define (utf8 "y") (.string (utf8 "b"))
    parse (utf8 "x = \"a\"; if x < y \x7b out x \x7d") [] = .ok
        [.expr (.assign (.expr (.identifier (utf8 "x"))) (utf8 "=") (.expr (.string (utf8 "a")))),
          .ifThen (.comparison (.identifier (utf8 "x")) (utf8 "<") (.identifier (utf8 "y")))
            [.output (.expr (.identifier (utf8 "x")))]] ∧
      parse (utf8 "x += \"b\"; out x") [] = .ok
        [.expr (.assign (.expr (.identifier (utf8 "x"))) (utf8 "+=") (.expr (.string (utf8 "b")))),
          .output (.expr (.identifier (utf8 "x")))] ∧
      Byte.greater ∉ utf8 "x += \"b\"; out x" ∧ scope.Whole ∧
      ∃ r₁ r₂ between after,
        emit (utf8 "x = \"a\"; if x < y \x7b out x \x7d") [] scope = (some (.ok r₁), between) ∧
        emit (utf8 "x += \"b\"; out x") [] between = (some (.ok r₂), after) ∧
        emit (utf8 "x = \"a\"; if x < y \x7b out x \x7d" ++ utf8 ";" ++ utf8 "x += \"b\"; out x") [] scope =
          (some (.ok (r₁ ++ r₂)), after) := by
  intro scope
  have h₁ : parse (utf8 "x = \"a\"; if x < y \x7b out x \x7d") [] = .ok
      [.expr (.assign (.expr (.identifier (utf8 "x"))) (utf8 "=") (.expr (.string (utf8 "a")))),
        .ifThen (.comparison (.identifier (utf8 "x")) (utf8 "<") (.identifier (utf8 "y")))
          [.output (.expr (.identifier (utf8 "x")))]] := by decide +kernel
  have h₂ : parse (utf8 "x += \"b\"; out x") [] = .ok
      [.expr (.assign (.expr (.identifier (utf8 "x"))) (utf8 "+=") (.expr (.string (utf8 "b")))),
        .output (.expr (.identifier (utf8 "x")))] := by decide +kernel
  have hg : Byte.greater ∉ utf8 "x += \"b\"; out x" := by decide
  have hscope : scope.Whole := Scope.whole_empty.define (utf8 "y") (by simp)
  exact ⟨h₁, h₂, hg, hscope, (emit_join _ _ _ _ _ h₁ h₂ (by decide) (.inr hg)).1 scope hscope⟩

end Jolt
