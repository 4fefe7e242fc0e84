import Jolt.Proofs.Grammar.Follow

/-!
# Walks end

A walk of any level comes to an end, wherever it starts up to the first end of input. It stays between its start and that
end of input and never reaches outside, and if it succeeds it has moved, unless it started at the end already
(`walk_total`). Nothing is asked of the tokens: any kinds with any texts, and ends of input anywhere.
-/

namespace Jolt.Grammar

/-! ## Every level comes to an end -/

/-- From `i` a walk comes to an end: with a tree or with a fault, at `i` or behind it, and at `e` or before it. With a
tree it has moved, unless it started at `e`. -/
def Walk.EndsBy {α : Type} (w : Walk α) (i e : Nat) : Prop :=
  ∃ j, i ≤ j ∧ j ≤ e ∧
    ((∃ x, w.runAt i = some (.ok x, j) ∧ (i < e → i < j)) ∨ ∃ f, w.runAt i = some (.error (.fault f), j))

theorem Walk.EndsBy.map {α β : Type} {w : Walk α} {i e : Nat} (h : w.EndsBy i e) (g : α → β) :
    Walk.EndsBy (do return g (← w)) i e := by
  obtain ⟨j, hij, hj, ⟨x, hx, hmoved⟩ | ⟨f, hf⟩⟩ := h
  · exact ⟨j, hij, hj, .inl ⟨g x, Walk.runAt_bind_of_ok hx, hmoved⟩⟩
  · exact ⟨j, hij, hj, .inr ⟨f, Walk.runAt_bind_of_error hf⟩⟩

/-- A walk that follows a reading by the rules ends, and it has moved as the rules take a token. -/
theorem Road.Follows.endsBy {r : Road} {α : Type} {w : Walk α} {i : Nat} {reading : Except Fault (α × List Token)}
    (h : r.Follows w i reading)
    (hr : ∀ x j, reading = .ok (x, r.unit.drop j) →
      ∃ f s, Reads r.stop.text f (r.unit.drop i) s (r.unit.drop j)) : w.EndsBy i r.unit.length := by
  cases h with
  | error hij hj h => exact ⟨_, hij, hj, .inr ⟨_, h⟩⟩
  | @ok x j hij hj h =>
    refine ⟨j, hij, hj, .inl ⟨x, h, fun hi => ?_⟩⟩
    obtain ⟨f, s, hreads⟩ := hr x j rfl
    rcases hreads.progress with hlt | ⟨hnil, -⟩
    · simp only [List.length_drop] at hlt
      omega
    · have := Road.le_of_drop_nil hnil
      omega

/-- The levels of the grammar, from loose to tight. -/
inductive Stage where
  | statement
  | assignment
  | output
  | conditional
  | expression
  | ternary
  | typed
  | comparison
  | sum
  | product
  | literal

/-- The walk of a level. An expression is the statement that it makes. -/
def Stage.walk (tokens : List Token) : Stage → Walk Stmt
  | .statement => walker tokens .statement
  | .assignment => walker tokens .assignment
  | .output => walker tokens .output
  | .conditional => walker tokens .conditional
  | .expression => do return .expr (← walker tokens .expression)
  | .ternary => do return .expr (← walker tokens .ternary)
  | .typed => do return .expr (← walker tokens .typed)
  | .comparison => do return .expr (← walker tokens (.joined .comparison))
  | .sum => do return .expr (← walker tokens (.joined .sum))
  | .product => do return .expr (← walker tokens (.joined .product))
  | .literal => do return .expr (← walker tokens .literal)

theorem Stage.endsBy (s : Stage) {r : Road} {i : Nat} (hi : i ≤ r.unit.length) :
    (s.walk r.tokens).EndsBy i r.unit.length := by
  have g := r.guided (r.unit.length + 1)
  have hn : r.unit.length < i + (r.unit.length + 1) := by omega
  have hle : r.unit.length ≤ i + (r.unit.length + 1) := Nat.le_of_lt hn
  have hlt : (r.unit.drop i).length < r.unit.length + 1 := by rw [List.length_drop]; omega
  have hsound := g.sound
  cases s with
  | statement => exact (Road.follows_statement g hi hn).endsBy fun s j h => ⟨_, _, sound_statement hsound hlt h⟩
  | assignment => exact (g.follows i hi hn).endsBy fun s j h => ⟨_, _, hsound _ _ _ hlt h⟩
  | output => exact (Road.follows_output g hi hle).endsBy fun s j h => ⟨_, _, sound_output hsound (Nat.le_of_lt hlt) h⟩
  | conditional =>
    exact (Road.follows_conditional g hi hle).endsBy fun s j h => ⟨_, _, sound_conditional hsound (Nat.le_of_lt hlt) h⟩
  | expression =>
    have h := (Road.follows_expression g hi hn).endsBy fun e j h => ⟨_, _, sound_expression hsound hlt h⟩
    exact h.map Stmt.expr
  | ternary =>
    have h := (Road.follows_ternary g hi hle).endsBy fun e j h => ⟨_, _, sound_ternary hsound (Nat.le_of_lt hlt) h⟩
    exact h.map Stmt.expr
  | typed =>
    have h := (Road.follows_typed g hi hle).endsBy fun e j h => ⟨_, _, sound_typed hsound (Nat.le_of_lt hlt) h⟩
    exact h.map Stmt.expr
  | comparison =>
    have h := (Road.follows_comparison g hi hle).endsBy fun e j h =>
      ⟨_, _, sound_comparison hsound (Nat.le_of_lt hlt) h⟩
    exact h.map Stmt.expr
  | sum =>
    have h := (Road.follows_sum g hi hle).endsBy fun e j h => ⟨_, _, sound_sum hsound (Nat.le_of_lt hlt) h⟩
    exact h.map Stmt.expr
  | product =>
    have h := (Road.follows_product g hi hle).endsBy fun e j h => ⟨_, _, sound_product hsound (Nat.le_of_lt hlt) h⟩
    exact h.map Stmt.expr
  | literal =>
    have h := (Road.follows_literal g hi hle).endsBy fun e j h => ⟨_, _, sound_literal hsound (Nat.le_of_lt hlt) h⟩
    exact h.map Stmt.expr

/-! ## Arbitrary tokens -/

/-- The tokens with an end of input behind them, if they do not end in one. -/
def closed (tokens : List Token) : List Token :=
  if tokens.getLast?.any Token.isEnd then tokens else tokens ++ [impliedStop]

/-- The place of the first end of input. -/
def firstEnd (tokens : List Token) : Nat :=
  (closed tokens).findIdx Token.isEnd

/-- Any tokens are a road, with what the readers take for its parts. -/
theorem exists_road (tokens : List Token) : ∃ r : Road, r.tokens = closed tokens ∧
    r.unit = tokens.takeWhile (!·.isEnd) ∧ r.stop = (tokens.find? (·.isEnd)).getD impliedStop := by
  cases hf : tokens.find? (·.isEnd) with
  | none =>
    have hahead : ∀ t ∈ tokens, t.isEnd = false := by simpa using hf
    refine ⟨⟨tokens, impliedStop, [], hahead, rfl⟩, ?_, ?_, rfl⟩
    · have hlast : tokens.getLast?.any Token.isEnd = false := by
        cases hl : tokens.getLast? with
        | none => rfl
        | some t => exact hahead t (List.mem_of_getLast? hl)
      rw [closed, hlast]
      rfl
    · have htake : (tokens ++ []).takeWhile (!·.isEnd) = tokens ++ [].takeWhile (!·.isEnd) :=
        List.takeWhile_append_of_pos (by simpa using hahead)
      simpa using htake.symm
  | some stop =>
    obtain ⟨hstop, unit, beyond, rfl, hahead⟩ := List.find?_eq_some_iff_append.1 hf
    have hunit : ∀ t ∈ unit, t.isEnd = false := by simpa using hahead
    have htake : (unit ++ stop :: beyond).takeWhile (!·.isEnd) = unit := by
      rw [List.takeWhile_append_of_pos (by simpa using hunit)]
      simp [hstop]
    -- an end of input may have been put behind the tokens all the same
    by_cases hlast : (unit ++ stop :: beyond).getLast?.any Token.isEnd = true
    · refine ⟨⟨unit, stop, beyond, hunit, hstop⟩, ?_, htake.symm, rfl⟩
      rw [closed, if_pos hlast]
      rfl
    · refine ⟨⟨unit, stop, beyond ++ [impliedStop], hunit, hstop⟩, ?_, htake.symm, rfl⟩
      rw [closed, if_neg hlast, List.append_assoc]
      rfl

theorem Road.firstEnd_eq {r : Road} {tokens : List Token} (h : r.tokens = closed tokens) :
    firstEnd tokens = r.unit.length := by
  have hnone : r.unit.findIdx Token.isEnd = r.unit.length := by
    rw [List.findIdx_eq_length]
    exact r.ahead
  rw [firstEnd, ← h, Road.tokens, List.findIdx_append, hnone, if_neg (Nat.lt_irrefl _), List.findIdx_cons, r.stops,
    cond_true, Nat.zero_add]

/-- The walk along any tokens ends, without reaching outside of them: with the program that they spell and the cursor at
the first end of input, or with their fault and the cursor not behind it. So does the walk of every level, from wherever
it starts up to that end of input. -/
theorem walk_total (tokens : List Token) :
    (match program tokens with
      | .ok p => (walker (closed tokens) .program).runAt 0 = some (.ok p, firstEnd tokens)
      | .error f => ∃ j ≤ firstEnd tokens, (walker (closed tokens) .program).runAt 0 = some (.error (.fault f), j)) ∧
    ∀ (s : Stage) (i : Nat), i ≤ firstEnd tokens → (s.walk (closed tokens)).EndsBy i (firstEnd tokens) := by
  obtain ⟨r, hr, hunit, hstop⟩ := exists_road tokens
  rw [Road.firstEnd_eq hr, ← hr]
  refine ⟨?_, fun s i hi => s.endsBy hi⟩
  have g := r.guided (r.unit.length + 1)
  have hfollows := Road.follows_program g r.unit.length 0 (Nat.zero_le _) (by omega) (by omega)
  have hprogram : program tokens = statements (assignment r.stop (r.unit.length + 1)) r.unit.length r.unit := by
    rw [program, hunit, hstop]
  rw [List.drop_zero, Road.toEnd, ← hprogram] at hfollows
  cases hp : program tokens with
  | ok p =>
    rw [hp] at hfollows
    obtain ⟨j, -, hj, hnil, h⟩ := Road.Follows.of_ok hfollows
    have hend : j = r.unit.length := Nat.le_antisymm hj (Road.le_of_drop_nil hnil.symm)
    exact hend ▸ h
  | error f =>
    rw [hp] at hfollows
    obtain ⟨j, -, hj, h⟩ := Road.Follows.of_error hfollows
    exact ⟨j, hj, h⟩

/-- A name, an end of input, and a parenthesis that is never seen. -/
theorem walk_total_inner_end :
    let tokens : List Token :=
      [⟨utf8 "x", .identifier, .nowhere⟩, ⟨[], .endOfInput, .nowhere⟩, ⟨utf8 ")", .closedParen, .nowhere⟩]
    firstEnd tokens = 1 ∧ (walker (closed tokens) .program).runAt 0 = some (.ok [.expr (.identifier (utf8 "x"))], 1) ∧
      (Stage.literal.walk (closed tokens)).EndsBy 0 1 := by
  intro tokens
  have hend : firstEnd tokens = 1 := by decide
  have hprogram : program tokens = .ok [.expr (.identifier (utf8 "x"))] := rfl
  have htotal := walk_total tokens
  rw [hprogram, hend] at htotal
  exact ⟨hend, htotal.1, htotal.2 .literal 0 (by decide)⟩

end Jolt.Grammar
