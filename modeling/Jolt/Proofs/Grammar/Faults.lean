import Jolt.Proofs.Grammar.Sound

/-!
# The tokens of faults

A reader leaves only tokens that it was given, and a fault of it is at one of them or at the end of the input
(`Reader.Stays`). Each level stays so if the reader of nested assignments does; `stays_assignment` ties the knot by
induction on the depth of nesting. So a fault of a program is at one of its tokens (`token_mem_of_program`).
-/

namespace Jolt.Grammar

/-- What is left, or the token that is at fault, is among the tokens `ts` or is the end of the input. -/
inductive Within (stop : Token) (ts : List Token) {α : Type} : Except Fault (α × List Token) → Prop
  | ok {x : α} {rest : List Token} : rest ⊆ ts → Within stop ts (.ok (x, rest))
  | error {f : Fault} : f.token = stop ∨ f.token ∈ ts → Within stop ts (.error f)

/-- A reader that stays within what it is given. -/
def Reader.Stays (stop : Token) {α : Type} (r : Reader α) : Prop :=
  ∀ ts, Within stop ts (r ts)

section Within

variable {stop : Token} {ts us : List Token} {α β : Type}

theorem Within.mono {r : Except Fault (α × List Token)} (h : Within stop ts r) (hs : ts ⊆ us) : Within stop us r := by
  cases h with
  | ok hr => exact .ok fun _ ht => hs (hr ht)
  | error hf => exact .error (hf.imp_right fun ht => hs ht)

theorem Within.bind {r : Except Fault (α × List Token)} {k : α × List Token → Except Fault (β × List Token)}
    (h : Within stop ts r) (hk : ∀ x rest, rest ⊆ ts → Within stop ts (k (x, rest))) : Within stop ts (r >>= k) := by
  cases h with
  | ok hr => exact hk _ _ hr
  | error hf => exact .error hf

theorem Reader.Stays.within {r : Reader α} (h : r.Stays stop) (hs : us ⊆ ts) : Within stop ts (r us) :=
  (h us).mono hs

theorem headD_mem (ts : List Token) : ts.headD stop = stop ∨ ts.headD stop ∈ ts := by
  cases ts with
  | nil => exact .inl rfl
  | cons t ts => exact .inr List.mem_cons_self

theorem subset_of_accept {kind : Token.Kind} {rest : List Token} (h : accept kind ts = some rest) : rest ⊆ ts := by
  obtain ⟨t, rfl, -⟩ := accept_eq_some.1 h
  exact List.subset_cons_self t rest

end Within

/-! ## The levels -/

section Levels

variable {stop : Token} {α : Type} {operand : Reader α} {isOperator : Token → Bool} {build : α → Text → α → α}

theorem stays_chainFrom (h : operand.Stays stop) (n : Nat) (left : α) :
    (chainFrom operand isOperator build n left).Stays stop := by
  induction n generalizing left with
  | zero => exact fun ts => .ok (List.Subset.refl ts)
  | succ n ih =>
    intro ts
    cases ts with
    | nil => exact .ok (List.Subset.refl [])
    | cons t ts =>
      rw [chainFrom]
      split
      · refine (h.within (List.subset_cons_self t ts)).bind fun right rest hr => ?_
        exact (ih _).within hr
      · exact .ok (List.Subset.refl _)

theorem stays_chain (h : operand.Stays stop) (n : Nat) : (chain operand isOperator build n).Stays stop := by
  intro ts
  refine (h ts).bind fun left rest hr => ?_
  exact (stays_chainFrom h n left).within hr

variable {nested : Reader Stmt} (h : nested.Stays stop) (n : Nat)

include h

theorem stays_expression : (expression stop nested).Stays stop := by
  intro ts
  refine (h ts).bind fun s rest hr => ?_
  cases s with
  | expr e => exact .ok hr
  | output | comment | ifThen | block => exact .error (headD_mem ts)

theorem stays_group : (group stop nested).Stays stop := by
  intro ts
  refine (stays_expression h ts).bind fun e rest hr => ?_
  dsimp only
  split
  · rename_i rest' hclose
    exact .ok fun t ht => hr (subset_of_accept hclose ht)
  · exact .error ((headD_mem rest).imp_right fun ht => hr ht)

theorem stays_literal : (literal stop nested).Stays stop := by
  intro ts
  cases ts with
  | nil => exact .ok (List.Subset.refl [])
  | cons t ts =>
    have htail := List.subset_cons_self t ts
    have hfault : ∀ cause, Within stop (t :: ts) (.error ⟨cause, t⟩ : Except Fault (Expr × List Token)) :=
      fun cause => .error (.inr List.mem_cons_self)
    rw [literal]
    split
    · exact .ok htail
    · split
      · exact .ok htail
      · exact hfault _
    · split
      · exact .ok htail
      · exact hfault _
    · exact (stays_group h).within htail
    · exact hfault _
    · exact .ok htail

theorem stays_comparison : (comparison stop nested n).Stays stop :=
  stays_chain (stays_chain (stays_chain (stays_literal h) n) n) n

theorem stays_typed : (typed stop nested n).Stays stop := by
  intro ts
  rw [typed]
  split
  · exact stays_comparison h n ts
  · rename_i rest haccept
    refine ((stays_comparison h n).within (subset_of_accept haccept)).bind fun e rest hr => ?_
    exact .ok hr

theorem stays_ternary : (ternary stop nested n).Stays stop := by
  intro ts
  refine (stays_typed h n ts).bind fun condition rest hr => ?_
  dsimp only
  split
  · exact .ok hr
  · rename_i rest₁ hquestion
    have hr₁ : rest₁ ⊆ ts := fun t ht => hr (subset_of_accept hquestion ht)
    refine ((stays_typed h n).within hr₁).bind fun yes rest₂ hr₂ => ?_
    refine ((stays_typed h n).within fun t ht => hr₂ (List.mem_of_mem_drop ht)).bind fun no rest₃ hr₃ => ?_
    exact .ok hr₃

theorem stays_statement : (statement nested).Stays stop := by
  intro ts
  cases ts with
  | nil => exact h []
  | cons t ts =>
    rw [statement]
    split
    · exact .ok (List.subset_cons_self t ts)
    · exact h _

theorem stays_body : (body stop nested n).Stays stop := by
  induction n with
  | zero => exact fun ts => .error (.inl rfl)
  | succ n ih =>
    intro ts
    cases ts with
    | nil => exact .error (.inl rfl)
    | cons t ts =>
      rw [body]
      split
      · exact .ok (List.subset_cons_self t ts)
      split
      · exact ih.within (List.subset_cons_self t ts)
      refine (stays_statement h _).bind fun s rest hr => ?_
      refine (ih.within fun u hu => hr ((skipEndOfLine_suffix rest).subset hu)).bind fun more rest hr => ?_
      exact .ok hr

theorem stays_conditional : (conditional stop nested n).Stays stop := by
  intro ts
  rw [conditional]
  split
  · refine (stays_ternary h n ts).bind fun e rest hr => ?_
    exact .ok hr
  · rename_i ts₁ haccept
    refine ((stays_expression h).within (subset_of_accept haccept)).bind fun condition rest hr => ?_
    dsimp only
    split
    · exact .ok hr
    · rename_i rest₁ hopen
      refine ((stays_body h n).within fun t ht => hr (subset_of_accept hopen ht)).bind fun b rest hr => ?_
      exact .ok hr

theorem stays_output : (output stop nested n).Stays stop := by
  intro ts
  rw [output]
  split
  · exact stays_conditional h n ts
  · rename_i ts₁ haccept
    refine ((stays_conditional h n).within (subset_of_accept haccept)).bind fun s rest hr => ?_
    exact .ok hr

end Levels

theorem stays_assignment (stop : Token) (n : Nat) : (assignment stop n).Stays stop := by
  induction n with
  | zero => exact fun ts => .error (.inl rfl)
  | succ n ih => exact stays_chain (stays_output ih n) n

/-! ## Programs -/

theorem bind_eq_error {ε α β : Type} {x : Except ε α} {k : α → Except ε β} {e : ε} :
    (x >>= k) = .error e ↔ x = .error e ∨ ∃ a, x = .ok a ∧ k a = .error e := by
  cases x <;> simp [bind, Except.bind]

theorem token_mem_of_statements {stop : Token} {nested : Reader Stmt} (h : nested.Stays stop) {f : Fault} :
    ∀ (n : Nat) (ts : List Token), statements nested n ts = .error f → f.token = stop ∨ f.token ∈ ts
  | 0, _, he | _ + 1, [], he => by cases he
  | n + 1, t :: ts, he => by
    rw [statements] at he
    split at he
    · exact (token_mem_of_statements h n ts he).imp_right (List.mem_cons_of_mem t)
    have hfirst := stays_statement h (t :: ts)
    rcases bind_eq_error.1 he with hs | ⟨⟨s, rest⟩, hs, he⟩
    · rw [hs] at hfirst
      cases hfirst with
      | error hf => exact hf
    · rw [hs] at hfirst
      cases hfirst with
      | ok hr =>
        rcases bind_eq_error.1 he with hm | ⟨more, -, he⟩
        · exact (token_mem_of_statements h n _ hm).imp_right fun hf => hr ((skipEndOfLine_suffix rest).subset hf)
        · cases he

/-- If there is an end of input among tokens, their fault is at one of them. -/
theorem token_mem_of_program {tokens : List Token} {f : Fault} (hend : ∃ t ∈ tokens, t.isEnd = true)
    (h : program tokens = .error f) : f.token ∈ tokens := by
  obtain ⟨stop, hstop⟩ : ∃ stop, tokens.find? (·.isEnd) = some stop := by
    rw [← Option.isSome_iff_exists, List.find?_isSome]
    exact hend
  rw [program, hstop, Option.getD_some] at h
  rcases token_mem_of_statements (stays_assignment stop _) _ _ h with ht | ht
  · rw [ht]
    exact List.mem_of_find?_eq_some hstop
  · exact (List.takeWhile_sublist _).subset ht

end Jolt.Grammar
