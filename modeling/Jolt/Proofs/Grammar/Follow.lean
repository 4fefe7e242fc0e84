import Jolt.Proofs.Grammar.Sound
import Jolt.Proofs.Grammar.Walk

/-!
# Walks follow readings

The tokens of a walk are a `Road`: those up to the first end of input, that end, and what lies behind it. From any place
up to that end the walk of a level comes to the tree or the fault that the reader of the level comes to, with the cursor
where the reader's tokens are left (`Road.Follows`). A reader is bounded and the walk is not: the bound is at least the
number of tokens ahead, and whatever is nested or repeated has a token less. `Road.guided` ties the knot as
`sound_assignment` does.
-/

namespace Jolt.Grammar

open Token (Kind)

/-! ## Roads -/

/-- Tokens up to their first end of input, that end, and what lies behind it. -/
structure Road where
  unit : List Token
  stop : Token
  beyond : List Token
  ahead : ∀ t ∈ unit, t.isEnd = false
  stops : stop.isEnd = true

namespace Road

/-- All tokens of a road. -/
def tokens (r : Road) : List Token :=
  r.unit ++ r.stop :: r.beyond

section Places

variable {r : Road} {i : Nat}

theorem lt_of_drop {t : Token} {ts : List Token} (h : r.unit.drop i = t :: ts) : i < r.unit.length := by
  apply Nat.lt_of_not_le
  intro hle
  rw [List.drop_eq_nil_of_le hle] at h
  cases h

theorem eq_of_drop {t : Token} {ts : List Token} (h : r.unit.drop i = t :: ts) : ts = r.unit.drop (i + 1) := by
  rw [← List.drop_drop, h]
  rfl

theorem le_of_drop_nil (h : r.unit.drop i = []) : r.unit.length ≤ i :=
  List.drop_eq_nil_iff.1 h

theorem isEnd_of_drop {t : Token} {ts : List Token} (h : r.unit.drop i = t :: ts) : t.isEnd = false := by
  apply r.ahead
  apply List.mem_of_mem_drop (i := i)
  rw [h]
  exact List.mem_cons_self

theorem tokens_of_drop {t : Token} {ts : List Token} (h : r.unit.drop i = t :: ts) : r.tokens[i]? = some t := by
  rw [tokens, List.getElem?_append_left (lt_of_drop h), ← List.head?_drop, h]
  rfl

theorem tokens_of_drop_nil (hi : i ≤ r.unit.length) (h : r.unit.drop i = []) : r.tokens[i]? = some r.stop := by
  have heq : i = r.unit.length := Nat.le_antisymm hi (le_of_drop_nil h)
  rw [tokens, heq, List.getElem?_append_right (Nat.le_refl _), Nat.sub_self]
  rfl

theorem kind_stop (r : Road) : r.stop.kind = .endOfInput :=
  of_decide_eq_true r.stops

/-- The token at the cursor is the first that lies ahead, or the end of the input. -/
theorem tokens_eq (hi : i ≤ r.unit.length) : r.tokens[i]? = some ((r.unit.drop i).headD r.stop) := by
  cases h : r.unit.drop i with
  | nil => exact tokens_of_drop_nil hi h
  | cons t ts => exact tokens_of_drop h

theorem drop_of_accept {kind : Kind} {ts : List Token} (h : accept kind (r.unit.drop i) = some ts) :
    i < r.unit.length ∧ ts = r.unit.drop (i + 1) := by
  obtain ⟨t, ht, -⟩ := accept_eq_some.1 h
  exact ⟨lt_of_drop ht, eq_of_drop ht⟩

theorem next_of_none {kind : Kind} (hi : i ≤ r.unit.length) (hk : kind ≠ .endOfInput)
    (h : accept kind (r.unit.drop i) = none) : (Walk.next r.tokens kind).runAt i = some (.ok false, i) := by
  have hl := accept_eq_none.1 h
  cases hd : r.unit.drop i with
  | nil =>
    apply Walk.runAt_next_of_ne (tokens_of_drop_nil hi hd)
    rw [r.kind_stop]
    exact hk.symm
  | cons t ts =>
    apply Walk.runAt_next_of_ne (tokens_of_drop hd)
    apply hl
    rw [hd]
    rfl

theorem next_of_some {kind : Kind} {ts : List Token} (h : accept kind (r.unit.drop i) = some ts) :
    (Walk.next r.tokens kind).runAt i = some (.ok true, i + 1) := by
  obtain ⟨t, ht, rfl⟩ := accept_eq_some.1 h
  exact Walk.runAt_next_of_eq (tokens_of_drop ht) (isEnd_of_drop ht)

theorem advance_of_drop {t : Token} {ts : List Token} (h : r.unit.drop i = t :: ts) :
    (Walk.advance r.tokens).runAt i = some (.ok t, i + 1) := by
  rw [Walk.runAt_advance (tokens_of_drop h), isEnd_of_drop h]
  rfl

theorem advance_of_drop_nil (hi : i ≤ r.unit.length) (h : r.unit.drop i = []) :
    (Walk.advance r.tokens).runAt i = some (.ok r.stop, i) := by
  rw [Walk.runAt_advance (tokens_of_drop_nil hi h), r.stops]
  rfl

end Places

/-! ## Walks that follow readings -/

/-- From `i` on a walk comes to what a reading of the tokens ahead comes to, without going back and without passing the
end of the input. -/
inductive Follows {α : Type} (r : Road) (w : Walk α) (i : Nat) : Except Fault (α × List Token) → Prop
  | ok {x : α} {j : Nat} : i ≤ j → j ≤ r.unit.length → w.runAt i = some (.ok x, j) →
      Follows r w i (.ok (x, r.unit.drop j))
  | error {f : Fault} {j : Nat} : i ≤ j → j ≤ r.unit.length → w.runAt i = some (.error (.fault f), j) →
      Follows r w i (.error f)

section Follows

variable {r : Road} {i : Nat} {α β : Type} {reading : Except Fault (β × List Token)}

theorem Follows.pure (hi : i ≤ r.unit.length) (x : α) : r.Follows (pure x) i (.ok (x, r.unit.drop i)) :=
  .ok (Nat.le_refl i) hi (Walk.runAt_pure x)

theorem Follows.throw (hi : i ≤ r.unit.length) (f : Fault) : r.Follows (α := α) (throw (.fault f)) i (.error f) :=
  .error (Nat.le_refl i) hi (Walk.runAt_throw _)

/-- A step that no reading sees. -/
theorem Follows.step {w : Walk α} {k : α → Walk β} {x : α} {m : Nat} (hw : w.runAt i = some (.ok x, m)) (hm : i ≤ m)
    (h : r.Follows (k x) m reading) : r.Follows (w >>= k) i reading := by
  cases h with
  | ok hmj hj h => exact .ok (Nat.le_trans hm hmj) hj ((Walk.runAt_bind_of_ok hw).trans h)
  | error hmj hj h => exact .error (Nat.le_trans hm hmj) hj ((Walk.runAt_bind_of_ok hw).trans h)

/-- One after the other, walks follow readings one after the other. -/
theorem Follows.bind {w : Walk α} {k : α → Walk β} {first : Except Fault (α × List Token)}
    {then_ : α × List Token → Except Fault (β × List Token)} (h : r.Follows w i first)
    (hk : ∀ x j, i ≤ j → j ≤ r.unit.length → first = .ok (x, r.unit.drop j) →
      r.Follows (k x) j (then_ (x, r.unit.drop j))) : r.Follows (w >>= k) i (first >>= then_) := by
  cases h with
  | ok hij hj h => exact .step h hij (hk _ _ hij hj rfl)
  | error hij hj h => exact .error hij hj (Walk.runAt_bind_of_error h)

theorem Follows.of_ok {w : Walk β} {x : β} {rest : List Token} (h : r.Follows w i (.ok (x, rest))) :
    ∃ j, i ≤ j ∧ j ≤ r.unit.length ∧ rest = r.unit.drop j ∧ w.runAt i = some (.ok x, j) := by
  cases h with
  | ok hij hj h => exact ⟨_, hij, hj, rfl, h⟩

theorem Follows.of_error {w : Walk β} {f : Fault} (h : r.Follows w i (.error f)) :
    ∃ j, i ≤ j ∧ j ≤ r.unit.length ∧ w.runAt i = some (.error (.fault f), j) := by
  cases h with
  | error hij hj h => exact ⟨_, hij, hj, h⟩

theorem Follows.peek {k : Token → Walk β} (hi : i ≤ r.unit.length)
    (h : r.Follows (k ((r.unit.drop i).headD r.stop)) i reading) : r.Follows (Walk.peek r.tokens >>= k) i reading :=
  .step (Walk.runAt_peek (tokens_eq hi)) (Nat.le_refl i) h

/-- Where a token lies ahead, its kind decides whether the cursor moves. -/
theorem Follows.next {kind : Kind} {t : Token} {ts : List Token} {k : Bool → Walk β} (hd : r.unit.drop i = t :: ts)
    (hyes : t.kind = kind → r.Follows (k true) (i + 1) reading)
    (hno : t.kind ≠ kind → r.Follows (k false) i reading) : r.Follows (Walk.next r.tokens kind >>= k) i reading := by
  by_cases hk : t.kind = kind
  · have ha : accept kind (r.unit.drop i) = some ts := accept_eq_some.2 ⟨t, hd, hk⟩
    exact .step (next_of_some ha) (Nat.le_succ i) (hyes hk)
  · exact .step (Walk.runAt_next_of_ne (tokens_of_drop hd) hk) (Nat.le_refl i) (hno hk)

/-- A separator may be there or not. -/
theorem Follows.skip {w : Walk β} (hi : i ≤ r.unit.length)
    (h : ∀ m, i ≤ m → m ≤ r.unit.length → skipEndOfLine (r.unit.drop i) = r.unit.drop m → r.Follows w m reading) :
    r.Follows (Walk.next r.tokens .endOfLine >>= fun _ => w) i reading := by
  cases ha : accept .endOfLine (r.unit.drop i) with
  | none =>
    apply Follows.step (next_of_none hi (by decide) ha) (Nat.le_refl i)
    apply h i (Nat.le_refl i) hi
    rw [skipEndOfLine, ha]
    rfl
  | some ts =>
    obtain ⟨hlt, rfl⟩ := drop_of_accept ha
    apply Follows.step (next_of_some ha) (Nat.le_succ i)
    apply h (i + 1) (Nat.le_succ i) hlt
    rw [skipEndOfLine, ha]
    rfl

end Follows

/-! ## Chains -/

section Chains

variable {r : Road} {n : Nat} {α : Type} {operand : Walk α} {reader : Reader α} {isOperator : Token → Bool}
  {build : α → Text → α → α} {loop : α → Walk α}

/-- A loop over operators follows the reader's loop, which has as many turns left as there are tokens. -/
theorem follows_chainFrom
    (hloop : ∀ left, loop left = do
      let t ← Walk.peek r.tokens
      if isOperator t then
        let operator ← Walk.advance r.tokens
        let right ← operand
        loop (build left operator.text right)
      else return left)
    (hstop : isOperator r.stop = false)
    (hop : ∀ i, i ≤ r.unit.length → r.unit.length ≤ i + n → r.Follows operand i (reader (r.unit.drop i))) :
    ∀ (m : Nat) (left : α) (i : Nat), i ≤ r.unit.length → r.unit.length ≤ i + m → r.unit.length ≤ i + n →
      r.Follows (loop left) i (chainFrom reader isOperator build m left (r.unit.drop i)) := by
  intro m
  induction m with
  | zero =>
    intro left i hi hm hn
    have hd : r.unit.drop i = [] := List.drop_eq_nil_of_le (by omega)
    rw [hloop]
    apply Follows.peek hi
    rw [hd, List.headD_nil, hstop, if_neg Bool.false_ne_true, chainFrom, ← hd]
    exact .pure hi left
  | succ m ih =>
    intro left i hi hm hn
    rw [hloop]
    apply Follows.peek hi
    cases hd : r.unit.drop i with
    | nil =>
      rw [List.headD_nil, hstop, if_neg Bool.false_ne_true, chainFrom, ← hd]
      exact .pure hi left
    | cons t ts =>
      have hlt := lt_of_drop hd
      rw [List.headD_cons, chainFrom]
      split
      · apply Follows.step (advance_of_drop hd) (Nat.le_succ i)
        rw [eq_of_drop hd]
        apply Follows.bind (hop (i + 1) hlt (by omega))
        intro right j hij hj _
        exact ih _ j hj (by omega) (by omega)
      · rw [← hd]
        exact .pure hi left

theorem follows_chain
    (hloop : ∀ left, loop left = do
      let t ← Walk.peek r.tokens
      if isOperator t then
        let operator ← Walk.advance r.tokens
        let right ← operand
        loop (build left operator.text right)
      else return left)
    (hstop : isOperator r.stop = false)
    (hop : ∀ i, i ≤ r.unit.length → r.unit.length ≤ i + n → r.Follows operand i (reader (r.unit.drop i)))
    {i : Nat} (hi : i ≤ r.unit.length) (hn : r.unit.length ≤ i + n) :
    r.Follows (operand >>= loop) i (chain reader isOperator build n (r.unit.drop i)) := by
  apply Follows.bind (hop i hi hn)
  intro left j hij hj _
  exact follows_chainFrom hloop hstop hop n left j hj (by omega) (by omega)

end Chains

/-! ## Levels -/

/-- What is known of nested assignments: on fewer than `n` tokens the walk follows the reader, and the reader obeys the
rules. -/
structure Guided (r : Road) (n : Nat) (nested : Reader Stmt) : Prop where
  follows : ∀ i, i ≤ r.unit.length → r.unit.length < i + n →
    r.Follows (walker r.tokens .assignment) i (nested (r.unit.drop i))
  sound : SoundBelow r.stop.text n nested

section Levels

variable {r : Road} {n i : Nat} {nested : Reader Stmt}

theorem follows_expression (g : r.Guided n nested) (hi : i ≤ r.unit.length) (hn : r.unit.length < i + n) :
    r.Follows (walker r.tokens .expression) i (expression r.stop nested (r.unit.drop i)) := by
  rw [walker_eq, Walker.step, expression]
  apply Follows.peek hi
  apply Follows.bind (g.follows i hi hn)
  intro s j hij hj _
  cases s with
  | expr e => exact .pure hj e
  | output | comment | ifThen | block => exact .throw hj _

theorem follows_string {t : Token} (hi : i ≤ r.unit.length) :
    r.Follows (do
        if t.text.length < 2 ∨ t.text.getLast? ≠ some Byte.quote then throw (.fault ⟨.unterminatedString, t⟩)
        else
          let value ← Walk.slice t.text 1 (t.text.length - 1)
          return Expr.string value) i
      (match unquote? t.text with
      | some s => .ok (.string s, r.unit.drop i)
      | none => .error ⟨.unterminatedString, t⟩) := by
  by_cases h : 2 ≤ t.text.length ∧ t.text.getLast? = some Byte.quote
  · have hcut : (t.text.take (t.text.length - 1)).drop 1 = (t.text.drop 1).dropLast := by
      rw [List.dropLast_eq_take, List.length_drop, List.drop_take]
    have hgood : ¬ (t.text.length < 2 ∨ t.text.getLast? ≠ some Byte.quote) := by
      intro hbad
      rcases hbad with hshort | hopen
      · exact Nat.not_lt.2 h.1 hshort
      · exact hopen h.2
    rw [unquote?, if_pos h, if_neg hgood, ← hcut]
    apply Follows.step (Walk.runAt_slice (by omega) (by omega)) (Nat.le_refl i)
    exact .pure hi _
  · have hbad : t.text.length < 2 ∨ t.text.getLast? ≠ some Byte.quote := by
      rwa [← Nat.not_le, ← Decidable.not_and_iff_not_or_not]
    rw [unquote?, if_neg h, if_pos hbad]
    exact .throw hi _

theorem follows_literal (g : r.Guided n nested) (hi : i ≤ r.unit.length) (hn : r.unit.length ≤ i + n) :
    r.Follows (walker r.tokens .literal) i (literal r.stop nested (r.unit.drop i)) := by
  rw [walker_eq, Walker.step]
  apply Follows.peek hi
  cases hd : r.unit.drop i with
  | nil =>
    rw [List.headD_nil, literal, r.kind_stop, ← hd]
    apply Follows.step (advance_of_drop_nil hi hd) (Nat.le_refl i)
    exact .pure hi _
  | cons t ts =>
    have hlt : i + 1 ≤ r.unit.length := lt_of_drop hd
    have hmove := advance_of_drop hd
    rw [List.headD_cons, literal, eq_of_drop hd]
    cases t.kind with
    | identifier => exact .step hmove (Nat.le_succ i) (.pure hlt _)
    | number =>
      apply Follows.step hmove (Nat.le_succ i)
      cases Number.ofLiteral? t.text with
      | some x => exact .pure hlt _
      | none => exact .throw hlt _
    | string => exact .step hmove (Nat.le_succ i) (follows_string hlt)
    | openParen =>
      apply Follows.step hmove (Nat.le_succ i)
      apply Follows.bind (follows_expression g hlt (by omega))
      intro e j hij hj _
      apply Follows.peek hj
      dsimp only
      cases ha : accept .closedParen (r.unit.drop j) with
      | none => exact .step (next_of_none hj (by decide) ha) (Nat.le_refl j) (.throw hj _)
      | some rest =>
        obtain ⟨hjlt, rfl⟩ := drop_of_accept ha
        exact .step (next_of_some ha) (Nat.le_succ j) (.pure hjlt e)
    | unknown => exact .throw hi _
    | _ => exact .step hmove (Nat.le_succ i) (.pure hlt _)

theorem isOperator_stop (r : Road) (j : Joint) : j.isOperator r.stop = false := by
  cases j <;> simp [Joint.isOperator, isProduct, isSum, r.kind_stop]

theorem follows_product (g : r.Guided n nested) (hi : i ≤ r.unit.length) (hn : r.unit.length ≤ i + n) :
    r.Follows (walker r.tokens (.joined .product)) i (product r.stop nested n (r.unit.drop i)) := by
  rw [walker_eq, Walker.step, product]
  apply follows_chain (fun left => walker_eq ..) (r.isOperator_stop .product) _ hi hn
  intro i hi hn
  rw [walker_eq, Walker.step]
  exact follows_literal g hi hn

theorem follows_sum (g : r.Guided n nested) (hi : i ≤ r.unit.length) (hn : r.unit.length ≤ i + n) :
    r.Follows (walker r.tokens (.joined .sum)) i (sum r.stop nested n (r.unit.drop i)) := by
  rw [walker_eq, Walker.step, sum]
  apply follows_chain (fun left => walker_eq ..) (r.isOperator_stop .sum) _ hi hn
  intro i hi hn
  rw [walker_eq, Walker.step]
  exact follows_product g hi hn

theorem follows_comparison (g : r.Guided n nested) (hi : i ≤ r.unit.length) (hn : r.unit.length ≤ i + n) :
    r.Follows (walker r.tokens (.joined .comparison)) i (comparison r.stop nested n (r.unit.drop i)) := by
  rw [walker_eq, Walker.step, comparison]
  apply follows_chain (fun left => walker_eq ..) (r.isOperator_stop .comparison) _ hi hn
  intro i hi hn
  rw [walker_eq, Walker.step]
  exact follows_sum g hi hn

theorem follows_typed (g : r.Guided n nested) (hi : i ≤ r.unit.length) (hn : r.unit.length ≤ i + n) :
    r.Follows (walker r.tokens .typed) i (typed r.stop nested n (r.unit.drop i)) := by
  rw [walker_eq, Walker.step, typed]
  cases ha : accept .type (r.unit.drop i) with
  | none => exact .step (next_of_none hi (by decide) ha) (Nat.le_refl i) (follows_comparison g hi hn)
  | some ts =>
    obtain ⟨hlt, rfl⟩ := drop_of_accept ha
    apply Follows.step (next_of_some ha) (Nat.le_succ i)
    apply Follows.bind (follows_comparison g hlt (by omega))
    intro e j hij hj _
    exact .pure hj _

theorem follows_ternary (g : r.Guided n nested) (hi : i ≤ r.unit.length) (hn : r.unit.length ≤ i + n) :
    r.Follows (walker r.tokens .ternary) i (ternary r.stop nested n (r.unit.drop i)) := by
  rw [walker_eq, Walker.step, ternary]
  apply Follows.bind (follows_typed g hi hn)
  intro c j hij hj _
  dsimp only
  cases ha : accept .question (r.unit.drop j) with
  | none => exact .step (next_of_none hj (by decide) ha) (Nat.le_refl j) (.pure hj c)
  | some ts =>
    obtain ⟨hlt, rfl⟩ := drop_of_accept ha
    apply Follows.step (next_of_some ha) (Nat.le_succ j)
    apply Follows.bind (follows_typed g hlt (by omega))
    intro y m hjm hm _
    -- the token between the values is passed over, whatever it is, but for the end of the input
    dsimp only
    cases hd : r.unit.drop m with
    | nil =>
      have hno := follows_typed g hm (by omega : r.unit.length ≤ m + n)
      rw [hd] at hno
      apply Follows.step (advance_of_drop_nil hm hd) (Nat.le_refl m)
      apply Follows.bind hno
      intro e l hml hl _
      exact .pure hl _
    | cons t ts =>
      have hmlt : m + 1 ≤ r.unit.length := lt_of_drop hd
      apply Follows.step (advance_of_drop hd) (Nat.le_succ m)
      rw [List.drop_succ_cons, List.drop_zero, eq_of_drop hd]
      apply Follows.bind (follows_typed g hmlt (by omega))
      intro e l hml hl _
      exact .pure hl _

theorem follows_statement (g : r.Guided n nested) (hi : i ≤ r.unit.length) (hn : r.unit.length < i + n) :
    r.Follows (walker r.tokens .statement) i (statement nested (r.unit.drop i)) := by
  have hnested := g.follows i hi hn
  rw [walker_eq, Walker.step]
  apply Follows.peek hi
  cases hd : r.unit.drop i with
  | nil =>
    rw [hd] at hnested
    rw [List.headD_nil, r.kind_stop]
    exact hnested
  | cons t ts =>
    rw [hd] at hnested
    rw [List.headD_cons, statement]
    split
    · apply Follows.step (advance_of_drop hd) (Nat.le_succ i)
      rw [eq_of_drop hd]
      exact .pure (lt_of_drop hd) _
    · exact hnested

/-- A statement that starts before the end of the input takes at least one token. -/
theorem lt_of_statement (g : r.Guided n nested) (hi : i < r.unit.length) (hn : r.unit.length < i + n) {s : Stmt}
    {j : Nat} (h : statement nested (r.unit.drop i) = .ok (s, r.unit.drop j)) : i < j := by
  have hlength : (r.unit.drop i).length < n := by rw [List.length_drop]; omega
  rcases (sound_statement g.sound hlength h).progress with hlt | ⟨hnil, -⟩
  · simp only [List.length_drop] at hlt
    omega
  · exact absurd (le_of_drop_nil hnil) (by omega)

/-- A statement and those after it. The statement takes a token, so fewer are left for the others. -/
theorem follows_item {rest : Walk (List Stmt)} {more : Reader (List Stmt)} (g : r.Guided n nested)
    (hi : i < r.unit.length) (hn : r.unit.length < i + n)
    (hmore : ∀ k, i < k → k ≤ r.unit.length → r.Follows rest k (more (r.unit.drop k))) :
    r.Follows (do
        let s ← walker r.tokens .statement
        let _ ← Walk.next r.tokens .endOfLine
        let b ← rest
        return s :: b) i
      (do
        let (s, ts) ← statement nested (r.unit.drop i)
        let (b, ts) ← more (skipEndOfLine ts)
        .ok (s :: b, ts)) := by
  apply Follows.bind (follows_statement g (Nat.le_of_lt hi) hn)
  intro s j hij hj hs
  have hlt := lt_of_statement g hi hn hs
  apply Follows.skip hj
  intro k hjk hk hskip
  dsimp only
  rw [hskip]
  apply Follows.bind (hmore k (by omega) hk)
  intro b l hkl hl _
  exact .pure hl (s :: b)

theorem follows_body_stop (hi : i ≤ r.unit.length) (hd : r.unit.drop i = []) (m : Nat) :
    r.Follows (walker r.tokens .body) i (body r.stop nested m (r.unit.drop i)) := by
  have ha : accept .closeBlock (r.unit.drop i) = none := by rw [hd]; rfl
  have hbody : body r.stop nested m [] = .error ⟨.unclosedBody, r.stop⟩ := by cases m <;> rfl
  rw [walker_eq, Walker.step, hd, hbody]
  apply Follows.step (next_of_none hi (by decide) ha) (Nat.le_refl i)
  rw [if_neg Bool.false_ne_true]
  apply Follows.peek hi
  rw [hd, List.headD_nil, r.stops, if_pos rfl]
  exact .throw hi _

theorem follows_body (g : r.Guided n nested) : ∀ (m i : Nat), i ≤ r.unit.length → r.unit.length ≤ i + m →
    r.unit.length < i + n → r.Follows (walker r.tokens .body) i (body r.stop nested m (r.unit.drop i)) := by
  intro m
  induction m with
  | zero =>
    intro i hi hm hn
    exact follows_body_stop hi (List.drop_eq_nil_of_le (by omega)) 0
  | succ m ih =>
    intro i hi hm hn
    cases hd : r.unit.drop i with
    | nil => exact hd ▸ follows_body_stop hi hd (m + 1)
    | cons t ts =>
      have hlt : i + 1 ≤ r.unit.length := lt_of_drop hd
      rw [walker_eq, Walker.step, body]
      apply Follows.next hd
      · intro hclose
        rw [if_pos hclose, if_pos rfl, eq_of_drop hd]
        exact .pure hlt []
      intro hclose
      rw [if_neg hclose, if_neg Bool.false_ne_true]
      apply Follows.peek hi
      rw [hd, List.headD_cons, isEnd_of_drop hd, if_neg Bool.false_ne_true]
      apply Follows.next hd
      · intro hline
        rw [if_pos hline, if_pos rfl, eq_of_drop hd]
        exact ih (i + 1) hlt (by omega) (by omega)
      intro hline
      rw [if_neg hline, if_neg Bool.false_ne_true, ← hd]
      exact follows_item g hlt hn fun k hik hk => ih k hk (by omega) (by omega)

theorem follows_conditional (g : r.Guided n nested) (hi : i ≤ r.unit.length) (hn : r.unit.length ≤ i + n) :
    r.Follows (walker r.tokens .conditional) i (conditional r.stop nested n (r.unit.drop i)) := by
  rw [walker_eq, Walker.step, conditional]
  cases ha : accept .condition (r.unit.drop i) with
  | none =>
    apply Follows.step (next_of_none hi (by decide) ha) (Nat.le_refl i)
    apply Follows.bind (follows_ternary g hi hn)
    intro e j hij hj _
    exact .pure hj _
  | some ts =>
    obtain ⟨hlt, rfl⟩ := drop_of_accept ha
    apply Follows.step (next_of_some ha) (Nat.le_succ i)
    apply Follows.bind (follows_expression g hlt (by omega))
    intro c j hij hj _
    dsimp only
    cases hb : accept .openBlock (r.unit.drop j) with
    | none => exact .step (next_of_none hj (by decide) hb) (Nat.le_refl j) (.pure hj _)
    | some ts =>
      obtain ⟨hjlt, rfl⟩ := drop_of_accept hb
      apply Follows.step (next_of_some hb) (Nat.le_succ j)
      apply Follows.bind (follows_body g n (j + 1) hjlt (by omega) (by omega))
      intro b m hjm hm _
      exact .pure hm _

theorem follows_output (g : r.Guided n nested) (hi : i ≤ r.unit.length) (hn : r.unit.length ≤ i + n) :
    r.Follows (walker r.tokens .output) i (output r.stop nested n (r.unit.drop i)) := by
  rw [walker_eq, Walker.step, output]
  cases ha : accept .output (r.unit.drop i) with
  | none => exact .step (next_of_none hi (by decide) ha) (Nat.le_refl i) (follows_conditional g hi hn)
  | some ts =>
    obtain ⟨hlt, rfl⟩ := drop_of_accept ha
    apply Follows.step (next_of_some ha) (Nat.le_succ i)
    apply Follows.bind (follows_conditional g hlt (by omega))
    intro s j hij hj _
    exact .pure hj _

/-- Assignments follow their reader. The induction is on the bound of the reader: what is nested lies behind a token. -/
theorem guided (r : Road) : ∀ n, r.Guided n (assignment r.stop n) := by
  intro n
  refine ⟨?_, sound_assignment r.stop n⟩
  induction n with
  | zero =>
    intro i hi hn
    omega
  | succ n ih =>
    intro i hi hn
    have g : r.Guided n (assignment r.stop n) := ⟨ih, sound_assignment r.stop n⟩
    rw [walker_eq, Walker.step, assignment]
    apply follows_chain _ _ (fun i hi hn => follows_output g hi hn) hi (by omega)
    · intro left
      rw [walker_eq, Walker.step]
      simp only [decide_eq_true_eq]
    · simp [r.kind_stop]

/-- The statements up to the end of the input, as a reader that leaves nothing. -/
def toEnd (nested : Reader Stmt) (m : Nat) : Reader Program := fun ts => do
  let p ← statements nested m ts
  .ok (p, [])

theorem toEnd_cons {m : Nat} {t : Token} {ts : List Token} (ht : t.kind ≠ .endOfLine) :
    toEnd nested (m + 1) (t :: ts) = (do
      let (s, rest) ← statement nested (t :: ts)
      let (more, rest) ← toEnd nested m (skipEndOfLine rest)
      .ok (s :: more, rest)) := by
  rw [toEnd, statements, if_neg ht]
  cases statement nested (t :: ts) with
  | error f => rfl
  | ok x =>
    show (do let p ← (do let more ← statements nested m (skipEndOfLine x.2); .ok (x.1 :: more)); .ok (p, [])) =
      (do let (more, rest) ← toEnd nested m (skipEndOfLine x.2); .ok (x.1 :: more, rest))
    rw [toEnd]
    cases statements nested m (skipEndOfLine x.2) <;> rfl

theorem follows_program (g : r.Guided n nested) : ∀ (m i : Nat), i ≤ r.unit.length → r.unit.length ≤ i + m →
    r.unit.length < i + n → r.Follows (walker r.tokens .program) i (toEnd nested m (r.unit.drop i)) := by
  have hstop : ∀ (m i : Nat), i ≤ r.unit.length → r.unit.drop i = [] →
      r.Follows (walker r.tokens .program) i (toEnd nested m (r.unit.drop i)) := by
    intro m i hi hd
    have hdone : toEnd nested m [] = .ok ([], []) := by cases m <;> rfl
    rw [walker_eq, Walker.step, hd, hdone, ← hd]
    apply Follows.peek hi
    rw [hd, List.headD_nil, r.stops, if_pos rfl, ← hd]
    exact .pure hi []
  intro m
  induction m with
  | zero =>
    intro i hi hm hn
    exact hstop 0 i hi (List.drop_eq_nil_of_le (by omega))
  | succ m ih =>
    intro i hi hm hn
    cases hd : r.unit.drop i with
    | nil => exact hd ▸ hstop (m + 1) i hi hd
    | cons t ts =>
      have hlt : i + 1 ≤ r.unit.length := lt_of_drop hd
      rw [walker_eq, Walker.step]
      apply Follows.peek hi
      rw [hd, List.headD_cons, isEnd_of_drop hd, if_neg Bool.false_ne_true]
      apply Follows.next hd
      · intro hline
        rw [if_pos rfl, toEnd, statements, if_pos hline, eq_of_drop hd]
        exact ih (i + 1) hlt (by omega) (by omega)
      intro hline
      rw [if_neg Bool.false_ne_true, toEnd_cons hline, ← hd]
      exact follows_item g hlt hn fun k hik hk => ih k hk (by omega) (by omega)

end Levels

end Road

end Jolt.Grammar
