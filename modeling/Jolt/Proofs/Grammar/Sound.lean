import Jolt.Proofs.Grammar.Rules

/-!
# The readers obey the rules

Each level of `Jolt.Grammar` is sound for the form of its name, on lists no longer than its bound, if the reader of nested
assignments is sound on shorter ones; `sound_assignment` ties the knot by induction on the depth of nesting.
-/

namespace Jolt.Grammar

open Token (Kind)

/-! ## Soundness of the readers -/

theorem bind_eq_ok {ε α β : Type} {x : Except ε α} {f : α → Except ε β} {b : β} :
    (x >>= f) = .ok b ↔ ∃ a, x = .ok a ∧ f a = .ok b := by
  cases x <;> simp [bind, Except.bind]

theorem accept_eq_none {kind : Kind} {ts : List Token} : accept kind ts = none ↔ Lacks kind ts := by
  cases ts <;> simp [accept, Lacks]

theorem accept_eq_some {kind : Kind} {ts rest : List Token} :
    accept kind ts = some rest ↔ ∃ t, ts = t :: rest ∧ t.kind = kind := by
  cases ts with
  | nil => simp [accept]
  | cons t ts =>
    simp only [accept, Option.ite_none_right_eq_some, Option.some.injEq, List.cons.injEq]
    constructor
    · rintro ⟨h, hr⟩
      exact ⟨t, ⟨rfl, hr⟩, h⟩
    · rintro ⟨_, ⟨rfl, hr⟩, h⟩
      exact ⟨h, hr⟩

/-- A reader of assignments obeys the rules on all lists that are shorter than `n`. -/
def SoundBelow (ending : Text) (n : Nat) (nested : Reader Stmt) : Prop :=
  ∀ ts s rest, ts.length < n → nested ts = .ok (s, rest) → Reads ending (.chain .assignment) ts s rest

section ChainSound

variable {ending : Text} {α : Type} {operand : Reader α} {isOperator : Token → Bool} {build : α → Text → α → α}
  {c : Chain} {g : α → Stmt} {n : Nat}

/-- The loop of a chain joins operands to what has been read. -/
theorem sound_chainFrom (hop : ∀ ts x rest, ts.length ≤ n → operand ts = .ok (x, rest) →
      Reads ending c.operand ts (g x) rest) (ho : ∀ t, isOperator t = c.isOperator t)
    (hb : ∀ l o r, c.build (g l) o (g r) = some (g (build l o r))) {ts₀ : List Token} :
    ∀ (k : Nat) {left x : α} {ts rest : List Token}, ts.length ≤ k → ts.length ≤ n →
      Reads ending (.links c) ts₀ (g left) ts → chainFrom operand isOperator build k left ts = .ok (x, rest) →
      Reads ending (.chain c) ts₀ (g x) rest
  | 0, left, x, ts, rest, hk, _, hl, h => by
    obtain rfl : ts = [] := List.eq_nil_of_length_eq_zero (by omega)
    simp only [chainFrom, Except.ok.injEq, Prod.mk.injEq] at h
    obtain ⟨rfl, rfl⟩ := h
    exact .done hl (by simp [Chain.Ends])
  | k + 1, left, x, [], rest, _, _, hl, h => by
    simp only [chainFrom, Except.ok.injEq, Prod.mk.injEq] at h
    obtain ⟨rfl, rfl⟩ := h
    exact .done hl (by simp [Chain.Ends])
  | k + 1, left, x, t :: ts, rest, hk, hn, hl, h => by
    simp only [List.length_cons] at hk hn
    rw [chainFrom] at h
    split at h
    · rename_i ht
      obtain ⟨⟨r, mid⟩, hr, h⟩ := bind_eq_ok.1 h
      have hr := hop ts r mid (by omega) hr
      have hlen := hr.length_le
      rw [ho] at ht
      exact sound_chainFrom hop ho hb k (by omega) (by omega) (.join hl ht hr (hb ..)) h
    · rename_i ht
      simp only [Except.ok.injEq, Prod.mk.injEq] at h
      obtain ⟨rfl, rfl⟩ := h
      exact .done hl (by simpa [Chain.Ends, ← ho] using ht)

theorem sound_chain (hop : ∀ ts x rest, ts.length ≤ n → operand ts = .ok (x, rest) →
      Reads ending c.operand ts (g x) rest) (ho : ∀ t, isOperator t = c.isOperator t)
    (hb : ∀ l o r, c.build (g l) o (g r) = some (g (build l o r))) {x : α} {ts rest : List Token}
    (hn : ts.length ≤ n) (h : chain operand isOperator build n ts = .ok (x, rest)) :
    Reads ending (.chain c) ts (g x) rest := by
  obtain ⟨⟨left, mid⟩, hl, h⟩ := bind_eq_ok.1 h
  have hl := hop ts left mid hn hl
  have hlen := hl.length_le
  exact sound_chainFrom hop ho hb n (by omega) (by omega) (.first hl) h

end ChainSound

section LevelsSound

variable {stop : Token} {nested : Reader Stmt} {n : Nat} {ts rest : List Token}

theorem sound_expression (hs : SoundBelow stop.text n nested) (hn : ts.length < n) {e : Expr}
    (h : expression stop nested ts = .ok (e, rest)) : Reads stop.text (.chain .assignment) ts (.expr e) rest := by
  obtain ⟨⟨s, mid⟩, hr, h⟩ := bind_eq_ok.1 h
  cases s <;> simp only [Except.ok.injEq, Prod.mk.injEq, reduceCtorEq] at h
  obtain ⟨rfl, rfl⟩ := h
  exact hs _ _ _ hn hr

theorem sound_literal (hs : SoundBelow stop.text n nested) (hn : ts.length ≤ n) {e : Expr}
    (h : literal stop nested ts = .ok (e, rest)) : Reads stop.text .literal ts (.expr e) rest := by
  cases ts with
  | nil =>
    simp only [literal, Except.ok.injEq, Prod.mk.injEq] at h
    obtain ⟨rfl, rfl⟩ := h
    exact .atEnd
  | cons t ts =>
    rw [literal] at h
    split at h
    · rename_i hk
      simp only [Except.ok.injEq, Prod.mk.injEq] at h
      obtain ⟨rfl, rfl⟩ := h
      exact .identifier hk
    · rename_i hk
      split at h <;> simp only [Except.ok.injEq, Prod.mk.injEq, reduceCtorEq] at h
      obtain ⟨rfl, rfl⟩ := h
      exact .number hk ‹_›
    · rename_i hk
      split at h <;> simp only [Except.ok.injEq, Prod.mk.injEq, reduceCtorEq] at h
      obtain ⟨rfl, rfl⟩ := h
      exact .string hk ‹_›
    · rename_i hk
      obtain ⟨⟨e', mid⟩, he, h⟩ := bind_eq_ok.1 h
      have he := sound_expression hs (by simp only [List.length_cons] at hn; omega) he
      dsimp only at h
      split at h <;> simp only [Except.ok.injEq, Prod.mk.injEq, reduceCtorEq] at h
      rename_i ha
      obtain ⟨u, rfl, hu⟩ := accept_eq_some.1 ha
      obtain ⟨rfl, rfl⟩ := h
      exact .group hk he hu
    · cases h
    · simp only [Except.ok.injEq, Prod.mk.injEq] at h
      obtain ⟨rfl, rfl⟩ := h
      exact .stray (by unfold isStray; split <;> simp_all)

theorem sound_product (hs : SoundBelow stop.text n nested) (hn : ts.length ≤ n) {e : Expr}
    (h : product stop nested n ts = .ok (e, rest)) : Reads stop.text (.chain .product) ts (.expr e) rest :=
  sound_chain (g := Stmt.expr) (fun _ _ _ hn h => sound_literal hs hn h) (fun _ => rfl) (fun _ _ _ => rfl) hn h

theorem sound_sum (hs : SoundBelow stop.text n nested) (hn : ts.length ≤ n) {e : Expr}
    (h : sum stop nested n ts = .ok (e, rest)) : Reads stop.text (.chain .sum) ts (.expr e) rest :=
  sound_chain (g := Stmt.expr) (fun _ _ _ hn h => sound_product hs hn h) (fun _ => rfl) (fun _ _ _ => rfl) hn h

theorem sound_comparison (hs : SoundBelow stop.text n nested) (hn : ts.length ≤ n) {e : Expr}
    (h : comparison stop nested n ts = .ok (e, rest)) : Reads stop.text (.chain .comparison) ts (.expr e) rest :=
  sound_chain (g := Stmt.expr) (fun _ _ _ hn h => sound_sum hs hn h) (fun _ => rfl) (fun _ _ _ => rfl) hn h

theorem sound_typed (hs : SoundBelow stop.text n nested) (hn : ts.length ≤ n) {e : Expr}
    (h : typed stop nested n ts = .ok (e, rest)) : Reads stop.text .typed ts (.expr e) rest := by
  rw [typed] at h
  split at h
  · rename_i ha
    exact .untyped (accept_eq_none.1 ha) (sound_comparison hs hn h)
  · rename_i ha
    obtain ⟨t, rfl, ht⟩ := accept_eq_some.1 ha
    obtain ⟨⟨e', mid⟩, he, h⟩ := bind_eq_ok.1 h
    simp only [Except.ok.injEq, Prod.mk.injEq] at h
    obtain ⟨rfl, rfl⟩ := h
    exact .typeOf ht (sound_comparison hs (by simp only [List.length_cons] at hn; omega) he)

theorem sound_ternary (hs : SoundBelow stop.text n nested) (hn : ts.length ≤ n) {e : Expr}
    (h : ternary stop nested n ts = .ok (e, rest)) : Reads stop.text .ternary ts (.expr e) rest := by
  obtain ⟨⟨c, mid⟩, hc, h⟩ := bind_eq_ok.1 h
  have hc := sound_typed hs hn hc
  have hlen := hc.length_le
  dsimp only at h
  split at h
  · rename_i ha
    simp only [Except.ok.injEq, Prod.mk.injEq] at h
    obtain ⟨rfl, rfl⟩ := h
    exact .decided hc (accept_eq_none.1 ha)
  · rename_i ha
    obtain ⟨t, rfl, ht⟩ := accept_eq_some.1 ha
    simp only [List.length_cons] at hlen
    obtain ⟨⟨y, ts₂⟩, hy, h⟩ := bind_eq_ok.1 h
    have hy := sound_typed hs (by omega) hy
    have hlen₂ := hy.length_le
    obtain ⟨⟨m, ts₃⟩, hm, h⟩ := bind_eq_ok.1 h
    have hm := sound_typed hs (by simp only [List.length_drop]; omega) hm
    simp only [Except.ok.injEq, Prod.mk.injEq] at h
    obtain ⟨rfl, rfl⟩ := h
    exact .choice hc ht hy hm

theorem sound_statement (hs : SoundBelow stop.text n nested) (hn : ts.length < n) {s : Stmt}
    (h : statement nested ts = .ok (s, rest)) : Reads stop.text .statement ts s rest := by
  cases ts with
  | nil => exact .plain (by simp [Lacks]) (hs _ _ _ hn h)
  | cons t ts =>
    rw [statement] at h
    split at h
    · rename_i ht
      simp only [Except.ok.injEq, Prod.mk.injEq] at h
      obtain ⟨rfl, rfl⟩ := h
      exact .comment ht
    · rename_i ht
      exact .plain (by simpa [Lacks] using ht) (hs _ _ _ hn h)

theorem sound_body (hs : SoundBelow stop.text n nested) : ∀ (k : Nat) {ts rest : List Token} {b : List Stmt},
    ts.length < n → body stop nested k ts = .ok (b, rest) → Reads stop.text (.items true) ts (.block b) rest
  | 0, _, _, _, _, h => by simp [body] at h
  | _ + 1, [], _, _, _, h => by simp [body] at h
  | k + 1, t :: ts, rest, b, hn, h => by
    simp only [List.length_cons] at hn
    rw [body] at h
    split at h
    · rename_i ht
      simp only [Except.ok.injEq, Prod.mk.injEq] at h
      obtain ⟨rfl, rfl⟩ := h
      exact .close ht
    · rename_i hc
      split at h
      · rename_i ht
        exact .skip ht (sound_body hs k (by omega) h)
      · rename_i ht
        obtain ⟨⟨s, ts₁⟩, hst, h⟩ := bind_eq_ok.1 h
        have hst := sound_statement hs (by simpa using hn) hst
        have hlen := hst.length_le
        have hskip := length_skipEndOfLine_le ts₁
        simp only [List.length_cons] at hlen
        obtain ⟨⟨more, ts₂⟩, hm, h⟩ := bind_eq_ok.1 h
        simp only [Except.ok.injEq, Prod.mk.injEq] at h
        obtain ⟨rfl, rfl⟩ := h
        exact .item ht (fun _ => hc) hst (sound_body hs k (by omega) hm)

theorem sound_conditional (hs : SoundBelow stop.text n nested) (hn : ts.length ≤ n) {s : Stmt}
    (h : conditional stop nested n ts = .ok (s, rest)) : Reads stop.text .conditional ts s rest := by
  rw [conditional] at h
  split at h
  · rename_i ha
    obtain ⟨⟨e, mid⟩, he, h⟩ := bind_eq_ok.1 h
    simp only [Except.ok.injEq, Prod.mk.injEq] at h
    obtain ⟨rfl, rfl⟩ := h
    exact .unmarked (accept_eq_none.1 ha) (sound_ternary hs hn he)
  · rename_i ha
    obtain ⟨t, rfl, ht⟩ := accept_eq_some.1 ha
    simp only [List.length_cons] at hn
    obtain ⟨⟨c, mid⟩, hc, h⟩ := bind_eq_ok.1 h
    have hc := sound_expression hs (by omega) hc
    have hlen := hc.length_le
    dsimp only at h
    split at h
    · rename_i hb
      simp only [Except.ok.injEq, Prod.mk.injEq] at h
      obtain ⟨rfl, rfl⟩ := h
      exact .marked ht hc (accept_eq_none.1 hb)
    · rename_i hb
      obtain ⟨u, rfl, hu⟩ := accept_eq_some.1 hb
      obtain ⟨⟨b, ts₁⟩, hb, h⟩ := bind_eq_ok.1 h
      simp only [Except.ok.injEq, Prod.mk.injEq] at h
      obtain ⟨rfl, rfl⟩ := h
      simp only [List.length_cons] at hlen
      exact .ifThen ht hc hu (sound_body hs n (by omega) hb)

theorem sound_output (hs : SoundBelow stop.text n nested) (hn : ts.length ≤ n) {s : Stmt}
    (h : output stop nested n ts = .ok (s, rest)) : Reads stop.text .output ts s rest := by
  rw [output] at h
  split at h
  · rename_i ha
    exact .silent (accept_eq_none.1 ha) (sound_conditional hs hn h)
  · rename_i ha
    obtain ⟨t, rfl, ht⟩ := accept_eq_some.1 ha
    obtain ⟨⟨s', mid⟩, hs', h⟩ := bind_eq_ok.1 h
    simp only [Except.ok.injEq, Prod.mk.injEq] at h
    obtain ⟨rfl, rfl⟩ := h
    exact .output ht (sound_conditional hs (by simp only [List.length_cons] at hn; omega) hs')

end LevelsSound

/-- What the reader of assignments gives, the rules give. The induction is on the depth of nesting. -/
theorem sound_assignment (stop : Token) : ∀ n, SoundBelow stop.text n (assignment stop n)
  | 0 => fun _ _ _ hn _ => absurd hn (Nat.not_lt_zero _)
  | n + 1 => fun _ _ _ hn h =>
    sound_chain (g := id) (fun _ _ _ hn h => sound_output (sound_assignment stop n) hn h) (fun _ => rfl)
      (fun _ _ _ => rfl) (Nat.le_of_lt_succ hn) h

theorem sound_statements {stop : Token} {nested : Reader Stmt} {n : Nat} (hs : SoundBelow stop.text n nested) :
    ∀ (k : Nat) {ts : List Token} {p : Program}, ts.length ≤ k → ts.length < n → statements nested k ts = .ok p →
      Reads stop.text (.items false) ts (.block p) []
  | 0, ts, p, hk, _, h => by
    obtain rfl : ts = [] := List.eq_nil_of_length_eq_zero (by omega)
    simp only [statements, Except.ok.injEq] at h
    exact h ▸ .finish
  | _ + 1, [], _, _, _, h => by
    simp only [statements, Except.ok.injEq] at h
    exact h ▸ .finish
  | k + 1, t :: ts, p, hk, hn, h => by
    simp only [List.length_cons] at hk hn
    rw [statements] at h
    split at h
    · rename_i ht
      exact .skip ht (sound_statements hs k (by omega) (by omega) h)
    · rename_i ht
      obtain ⟨⟨s, ts₁⟩, hst, h⟩ := bind_eq_ok.1 h
      have hst := sound_statement hs (by simpa using hn) hst
      have hlen : ts₁.length < ts.length + 1 := by simpa using hst.progress
      have hskip := length_skipEndOfLine_le ts₁
      obtain ⟨more, hm, h⟩ := bind_eq_ok.1 h
      simp only [Except.ok.injEq] at h
      exact h ▸ .item ht (by simp) hst (sound_statements hs k (by omega) (by omega) hm)

end Jolt.Grammar
