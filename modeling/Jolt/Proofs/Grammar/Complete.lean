import Jolt.Proofs.Grammar.Sound

/-!
# The readers find what the rules give

The bounds of the readers are never reached when they are at least the number of tokens (`complete_assignment`). So a
program is what the form of all statements reads (`program_eq_ok_iff`), and a form reads at most one tree off given
tokens (`Reads.det`).
-/

namespace Jolt.Grammar

open Token (Kind)

/-! ## Completeness of the readers -/

/-- A reader of assignments finds what the rules give on all lists that are shorter than `n`. -/
def CompleteBelow (ending : Text) (n : Nat) (nested : Reader Stmt) : Prop :=
  ∀ ts s rest, ts.length < n → Reads ending (.chain .assignment) ts s rest → nested ts = .ok (s, rest)

section ChainComplete

variable {ending : Text} {α : Type} {operand : Reader α} {isOperator : Token → Bool} {build : α → Text → α → α}
  {c : Chain} {g : α → Stmt} {n : Nat}

/-- A chain that may go on is a state of the loop, with turns enough for the tokens that are left. -/
theorem complete_links (hop : ∀ ts s rest, ts.length ≤ n → Reads ending c.operand ts s rest →
      ∃ x, s = g x ∧ operand ts = .ok (x, rest)) (ho : ∀ t, isOperator t = c.isOperator t)
    (hb : ∀ l o r, c.build (g l) o (g r) = some (g (build l o r))) {s : Stmt} {ts rest : List Token}
    (h : Reads ending (.links c) ts s rest) (hn : ts.length ≤ n) :
    ∃ x m, s = g x ∧ rest.length ≤ m ∧
      chain operand isOperator build n ts = chainFrom operand isOperator build m x rest := by
  generalize hf : Form.links c = f at h
  induction h with cases hf
  | first h =>
    obtain ⟨x, rfl, hx⟩ := hop _ _ _ hn h
    have := h.length_le
    exact ⟨x, n, rfl, by omega, by simp [chain, hx, bind, Except.bind]⟩
  | @join _ t ts mid rest l r s hl ht hr hs ih =>
    obtain ⟨x, m, rfl, hm, hc⟩ := ih hn rfl
    have hlen := hl.length_le
    simp only [List.length_cons] at hm hlen
    obtain ⟨y, rfl, hy⟩ := hop _ _ _ (by omega) hr
    obtain ⟨m, rfl⟩ : ∃ k, m = k + 1 := ⟨m - 1, by omega⟩
    rw [hb, Option.some.injEq] at hs
    have := hr.length_le
    refine ⟨build x t.text y, m, hs.symm, by omega, ?_⟩
    rw [hc, chainFrom, if_pos (by rw [ho]; exact ht), hy]
    rfl

theorem complete_chain (hop : ∀ ts s rest, ts.length ≤ n → Reads ending c.operand ts s rest →
      ∃ x, s = g x ∧ operand ts = .ok (x, rest)) (ho : ∀ t, isOperator t = c.isOperator t)
    (hb : ∀ l o r, c.build (g l) o (g r) = some (g (build l o r))) {s : Stmt} {ts rest : List Token}
    (h : Reads ending (.chain c) ts s rest) (hn : ts.length ≤ n) :
    ∃ x, s = g x ∧ chain operand isOperator build n ts = .ok (x, rest) := by
  cases h with
  | done h he =>
    obtain ⟨x, m, rfl, hm, hc⟩ := complete_links hop ho hb h hn
    refine ⟨x, rfl, hc.trans ?_⟩
    cases m with
    | zero => rfl
    | succ m =>
      cases rest with
      | nil => rfl
      | cons t rest => rw [chainFrom, if_neg (by rw [ho]; simp [he t rfl])]

end ChainComplete

section LevelsComplete

variable {stop : Token} {nested : Reader Stmt} {n : Nat} {s : Stmt} {ts rest : List Token}

theorem complete_expression (hs : CompleteBelow stop.text n nested) (hn : ts.length < n) {e : Expr}
    (h : Reads stop.text (.chain .assignment) ts (.expr e) rest) : expression stop nested ts = .ok (e, rest) := by
  simp [expression, hs _ _ _ hn h, bind, Except.bind]

theorem complete_literal (hs : CompleteBelow stop.text n nested) (hn : ts.length ≤ n)
    (h : Reads stop.text .literal ts s rest) : ∃ e, s = .expr e ∧ literal stop nested ts = .ok (e, rest) := by
  cases h with
  | identifier hk => exact ⟨_, rfl, by simp [literal, hk]⟩
  | number hk hx => exact ⟨_, rfl, by simp [literal, hk, hx]⟩
  | string hk hx => exact ⟨_, rfl, by simp [literal, hk, hx]⟩
  | group hk he hu =>
    have he := complete_expression hs (by simp only [List.length_cons] at hn; omega) he
    exact ⟨_, rfl, by simp [literal, hk, group, he, accept, hu, bind, Except.bind]⟩
  | @stray t ts hk =>
    refine ⟨_, rfl, ?_⟩
    rw [literal]
    split <;> simp_all [isStray]
  | atEnd => exact ⟨_, rfl, rfl⟩

theorem complete_product (hs : CompleteBelow stop.text n nested) (hn : ts.length ≤ n)
    (h : Reads stop.text (.chain .product) ts s rest) : ∃ e, s = .expr e ∧ product stop nested n ts = .ok (e, rest) :=
  complete_chain (g := Stmt.expr) (fun _ _ _ hn h => complete_literal hs hn h) (fun _ => rfl) (fun _ _ _ => rfl) h hn

theorem complete_sum (hs : CompleteBelow stop.text n nested) (hn : ts.length ≤ n)
    (h : Reads stop.text (.chain .sum) ts s rest) : ∃ e, s = .expr e ∧ sum stop nested n ts = .ok (e, rest) :=
  complete_chain (g := Stmt.expr) (fun _ _ _ hn h => complete_product hs hn h) (fun _ => rfl) (fun _ _ _ => rfl) h hn

theorem complete_comparison (hs : CompleteBelow stop.text n nested) (hn : ts.length ≤ n)
    (h : Reads stop.text (.chain .comparison) ts s rest) :
    ∃ e, s = .expr e ∧ comparison stop nested n ts = .ok (e, rest) :=
  complete_chain (g := Stmt.expr) (fun _ _ _ hn h => complete_sum hs hn h) (fun _ => rfl) (fun _ _ _ => rfl) h hn

theorem complete_typed (hs : CompleteBelow stop.text n nested) (hn : ts.length ≤ n)
    (h : Reads stop.text .typed ts s rest) : ∃ e, s = .expr e ∧ typed stop nested n ts = .ok (e, rest) := by
  cases h with
  | typeOf ht h =>
    obtain ⟨_, ⟨⟩, he⟩ := complete_comparison hs (by simp only [List.length_cons] at hn; omega) h
    exact ⟨_, rfl, by simp [typed, accept, ht, he, bind, Except.bind]⟩
  | untyped ht h =>
    obtain ⟨e, rfl, he⟩ := complete_comparison hs hn h
    exact ⟨e, rfl, by simp [typed, accept_eq_none.2 ht, he]⟩

theorem complete_ternary (hs : CompleteBelow stop.text n nested) (hn : ts.length ≤ n)
    (h : Reads stop.text .ternary ts s rest) : ∃ e, s = .expr e ∧ ternary stop nested n ts = .ok (e, rest) := by
  cases h with
  | @choice t _ ts₁ ts₂ _ _ _ _ hc ht hy hm =>
    have h₁ := hc.length_le
    have h₂ := hy.length_le
    simp only [List.length_cons] at h₁
    obtain ⟨_, ⟨⟩, hc⟩ := complete_typed hs hn hc
    obtain ⟨_, ⟨⟩, hy⟩ := complete_typed hs (by omega) hy
    obtain ⟨_, ⟨⟩, hm⟩ := complete_typed hs (by simp only [List.length_drop]; omega) hm
    exact ⟨_, rfl, by simp only [ternary, hc, accept, ht, if_true, hy, hm, bind, Except.bind]⟩
  | decided h ht =>
    obtain ⟨e, rfl, he⟩ := complete_typed hs hn h
    exact ⟨e, rfl, by simp [ternary, he, accept_eq_none.2 ht, bind, Except.bind]⟩

theorem complete_statement (hs : CompleteBelow stop.text n nested) (hn : ts.length < n)
    (h : Reads stop.text .statement ts s rest) : statement nested ts = .ok (s, rest) := by
  cases h with
  | comment ht => simp [statement, ht]
  | plain ht h =>
    have h := hs _ _ _ hn h
    cases ts with
    | nil => simpa [statement] using h
    | cons t ts => rw [statement, if_neg (ht t rfl), h]

theorem complete_body (hs : CompleteBelow stop.text n nested) (hn : ts.length < n)
    (h : Reads stop.text (.items true) ts s rest) :
    ∃ b, s = .block b ∧ ∀ m, ts.length ≤ m → body stop nested m ts = .ok (b, rest) := by
  generalize hf : Form.items true = f at h
  induction h with cases hf
  | close ht =>
    refine ⟨[], rfl, fun m hm => ?_⟩
    obtain ⟨m, rfl⟩ : ∃ k, m = k + 1 := ⟨m - 1, by simp only [List.length_cons] at hm; omega⟩
    simp [body, ht]
  | skip ht _ ih =>
    simp only [List.length_cons] at hn
    obtain ⟨b, rfl, hb⟩ := ih (by omega) rfl
    refine ⟨b, rfl, fun m hm => ?_⟩
    simp only [List.length_cons] at hm
    obtain ⟨m, rfl⟩ : ∃ k, m = k + 1 := ⟨m - 1, by omega⟩
    rw [body, if_neg (by simp [ht]), if_pos ht, hb m (by omega)]
  | @item _ t ts ts₁ rest s more ht hc hst _ _ ih =>
    have hlen : ts₁.length < ts.length + 1 := by simpa using hst.progress
    have hskip := length_skipEndOfLine_le ts₁
    have hst := complete_statement hs hn hst
    simp only [List.length_cons] at hn
    obtain ⟨_, ⟨⟩, hb⟩ := ih (by omega) rfl
    refine ⟨s :: more, rfl, fun m hm => ?_⟩
    simp only [List.length_cons] at hm
    obtain ⟨m, rfl⟩ : ∃ k, m = k + 1 := ⟨m - 1, by omega⟩
    rw [body, if_neg (hc rfl), if_neg ht, hst]
    simp only [bind, Except.bind, hb m (by omega)]

theorem complete_conditional (hs : CompleteBelow stop.text n nested) (hn : ts.length ≤ n)
    (h : Reads stop.text .conditional ts s rest) : conditional stop nested n ts = .ok (s, rest) := by
  cases h with
  | @ifThen t u ts ts₁ _ c b ht hc hu hb =>
    have hlen := hc.length_le
    simp only [List.length_cons] at hn hlen
    have hc := complete_expression hs (by omega) hc
    obtain ⟨_, ⟨⟩, hb⟩ := complete_body hs (by omega) hb
    simp [conditional, accept, ht, hc, hu, hb n (by omega), bind, Except.bind]
  | marked ht hc hb =>
    simp only [List.length_cons] at hn
    have hc := complete_expression hs (by omega) hc
    simp [conditional, accept_eq_none.2 hb, accept_eq_some.2 ⟨_, rfl, ht⟩, hc, bind, Except.bind]
  | unmarked ht h =>
    obtain ⟨e, rfl, he⟩ := complete_ternary hs hn h
    simp [conditional, accept_eq_none.2 ht, he, bind, Except.bind]

theorem complete_output (hs : CompleteBelow stop.text n nested) (hn : ts.length ≤ n)
    (h : Reads stop.text .output ts s rest) : output stop nested n ts = .ok (s, rest) := by
  cases h with
  | output ht h =>
    simp only [List.length_cons] at hn
    simp [output, accept, ht, complete_conditional hs (by omega) h, bind, Except.bind]
  | silent ht h => simp [output, accept_eq_none.2 ht, complete_conditional hs hn h]

theorem complete_statements (hs : CompleteBelow stop.text n nested) (hn : ts.length < n)
    (h : Reads stop.text (.items false) ts s rest) :
    ∃ p, s = .block p ∧ rest = [] ∧ ∀ m, ts.length ≤ m → statements nested m ts = .ok p := by
  generalize hf : Form.items false = f at h
  induction h with cases hf
  | finish => exact ⟨[], rfl, rfl, fun m _ => by cases m <;> rfl⟩
  | skip ht _ ih =>
    simp only [List.length_cons] at hn
    obtain ⟨p, rfl, rfl, hp⟩ := ih (by omega) rfl
    refine ⟨p, rfl, rfl, fun m hm => ?_⟩
    simp only [List.length_cons] at hm
    obtain ⟨m, rfl⟩ : ∃ k, m = k + 1 := ⟨m - 1, by omega⟩
    rw [statements, if_pos ht, hp m (by omega)]
  | @item _ t ts ts₁ rest s more ht _ hst _ _ ih =>
    have hlen : ts₁.length < ts.length + 1 := by simpa using hst.progress
    have hskip := length_skipEndOfLine_le ts₁
    have hst := complete_statement hs hn hst
    simp only [List.length_cons] at hn
    obtain ⟨_, ⟨⟩, rfl, hp⟩ := ih (by omega) rfl
    refine ⟨s :: more, rfl, rfl, fun m hm => ?_⟩
    simp only [List.length_cons] at hm
    obtain ⟨m, rfl⟩ : ∃ k, m = k + 1 := ⟨m - 1, by omega⟩
    rw [statements, if_neg ht, hst]
    simp only [bind, Except.bind, hp m (by omega)]

end LevelsComplete

/-- What the rules give, the reader of assignments finds. -/
theorem complete_assignment (stop : Token) : ∀ n, CompleteBelow stop.text n (assignment stop n)
  | 0 => fun _ _ _ hn _ => absurd hn (Nat.not_lt_zero _)
  | n + 1 => fun _ s _ hn h => by
    have hop : ∀ ts s rest, ts.length ≤ n → Reads stop.text Chain.assignment.operand ts s rest →
        ∃ x, s = id x ∧ output stop (assignment stop n) n ts = .ok (x, rest) :=
      fun _ s _ hn h => ⟨s, rfl, complete_output (complete_assignment stop n) hn h⟩
    obtain ⟨_, rfl, hx⟩ := complete_chain hop (fun _ => rfl) (fun _ _ _ => rfl) h (Nat.le_of_lt_succ hn)
    exact hx

/-! ## A form reads one tree -/

/-- A form, other than a chain that may go on, reads at most one tree off given tokens. -/
theorem Reads.det {ending : Text} {f : Form} {ts rest rest' : List Token} {s s' : Stmt} (hf : ∀ c, f ≠ .links c)
    (h : Reads ending f ts s rest) (h' : Reads ending f ts s' rest') : s = s' ∧ rest = rest' := by
  let stop : Token := ⟨ending, .endOfInput, .nowhere⟩
  have hn : ts.length < ts.length + 1 := Nat.lt_succ_self _
  have hle : ts.length ≤ ts.length + 1 := Nat.le_succ _
  have hs : CompleteBelow stop.text (ts.length + 1) (assignment stop (ts.length + 1)) := complete_assignment _ _
  -- both readings are what the reader of the form gives
  have key {α : Type} {r : Except Fault (α × List Token)} {g : α → Stmt} (h : ∃ x, s = g x ∧ r = .ok (x, rest))
      (h' : ∃ x, s' = g x ∧ r = .ok (x, rest')) : s = s' ∧ rest = rest' := by
    obtain ⟨x, rfl, hx⟩ := h
    obtain ⟨x', rfl, hx'⟩ := h'
    rw [hx, Except.ok.injEq, Prod.mk.injEq] at hx'
    exact ⟨congrArg g hx'.1, hx'.2⟩
  cases f with
  | links c => exact absurd rfl (hf c)
  | literal => exact key (complete_literal hs hle h) (complete_literal hs hle h')
  | typed => exact key (complete_typed hs hle h) (complete_typed hs hle h')
  | ternary => exact key (complete_ternary hs hle h) (complete_ternary hs hle h')
  | conditional =>
    exact key (g := id) ⟨s, rfl, complete_conditional hs hle h⟩ ⟨s', rfl, complete_conditional hs hle h'⟩
  | output => exact key (g := id) ⟨s, rfl, complete_output hs hle h⟩ ⟨s', rfl, complete_output hs hle h'⟩
  | statement => exact key (g := id) ⟨s, rfl, complete_statement hs hn h⟩ ⟨s', rfl, complete_statement hs hn h'⟩
  | chain c =>
    cases c with
    | product => exact key (complete_product hs hle h) (complete_product hs hle h')
    | sum => exact key (complete_sum hs hle h) (complete_sum hs hle h')
    | comparison => exact key (complete_comparison hs hle h) (complete_comparison hs hle h')
    | assignment => exact key (g := id) ⟨s, rfl, hs _ _ _ hn h⟩ ⟨s', rfl, hs _ _ _ hn h'⟩
  | items b =>
    cases b with
    | true =>
      obtain ⟨b, rfl, hb⟩ := complete_body hs hn h
      obtain ⟨b', rfl, hb'⟩ := complete_body hs hn h'
      exact key (g := Stmt.block) ⟨b, rfl, hb _ hle⟩ ⟨b', rfl, hb' _ hle⟩
    | false =>
      obtain ⟨p, rfl, rfl, hp⟩ := complete_statements hs hn h
      obtain ⟨p', rfl, rfl, hp'⟩ := complete_statements hs hn h'
      have := (hp _ hle).symm.trans (hp' _ hle)
      simpa using this

/-! ## Programs -/

/-- A program is what the statements up to the end of the input are read as. -/
theorem program_eq_ok_iff {tokens : List Token} {p : Program} :
    program tokens = .ok p ↔ Reads ((tokens.find? (·.isEnd)).getD impliedStop).text (.items false)
      (tokens.takeWhile (!·.isEnd)) (.block p) [] := by
  refine ⟨sound_statements (sound_assignment _ _) _ (Nat.le_refl _) (Nat.lt_succ_self _), fun h => ?_⟩
  obtain ⟨_, ⟨⟩, -, hp⟩ := complete_statements (complete_assignment _ _) (Nat.lt_succ_self _) h
  exact hp _ (Nat.le_refl _)

end Jolt.Grammar
