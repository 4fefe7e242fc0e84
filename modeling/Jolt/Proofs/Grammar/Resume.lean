import Jolt.Proofs.Grammar.Complete
import Jolt.Proofs.Tree.Spine

/-!
# Readings along the left edge

A reading of a chain goes through every shorter chain that starts with the same tokens (`Reads.resumes`). So two readings
from the same tokens can be compared: what a tighter form reads, the looser one begins with.
-/

namespace Jolt.Grammar

variable {ending : Text} {c : Chain} {t : Token} {ts k mid rest : List Token} {l m r s : Stmt}

theorem Chain.over_of_build {o : Text} (h : c.build l o r = some s) : s.Over l := by
  rcases Chain.build_cases h with ⟨a, b, -, rfl, rfl, rfl⟩ | ⟨a, b, -, rfl, rfl, rfl⟩ | ⟨-, rfl⟩ <;> rfl

theorem Chain.build_inj {r' : Stmt} {o : Text} (h : c.build l o r = some s) (h' : c.build l o r' = some s) : r = r' := by
  rcases Chain.build_cases h with ⟨a, b, -, rfl, rfl, rfl⟩ | ⟨a, b, -, rfl, rfl, rfl⟩ | ⟨-, rfl⟩ <;>
    rcases Chain.build_cases h' with ⟨a', b', -, hl, rfl, hs⟩ | ⟨a', b', -, hl, rfl, hs⟩ | ⟨-, hs⟩ <;>
    cases hs <;> rfl

/-- With `l` read and `k` to come, the chain goes on to `s` with `rest` to come. -/
inductive Chain.Resumes (ending : Text) (c : Chain) : Stmt → List Token → Stmt → List Token → Prop
  | stop {s : Stmt} {rest : List Token} : Resumes ending c s rest s rest
  | step {t : Token} {k mid rest : List Token} {l r m s : Stmt} : c.isOperator t = true → Reads ending c.operand k r mid →
      c.build l t.text r = some m → Resumes ending c m mid s rest → Resumes ending c l (t :: k) s rest

theorem Chain.Resumes.begins (h : c.Resumes ending l k s rest) : l.Begins s := by
  induction h with
  | stop => exact Stmt.Begins.refl _
  | step _ _ hb _ ih => exact (Chain.over_of_build hb).begins.trans ih

theorem Chain.Resumes.snoc (h : c.Resumes ending l k m (t :: mid)) (ho : c.isOperator t = true)
    (hr : Reads ending c.operand mid r rest) (hb : c.build m t.text r = some s) : c.Resumes ending l k s rest := by
  generalize hts : t :: mid = us at h
  induction h with
  | stop =>
    subst hts
    exact .step ho hr hb .stop
  | step ho' hr' hb' _ ih => exact .step ho' hr' hb' (ih hb hts)

/-- A chain starts with its first operand. -/
theorem Reads.exists_resumes (h : Reads ending (.links c) ts s rest) :
    ∃ l k, Reads ending c.operand ts l k ∧ c.Resumes ending l k s rest := by
  generalize hf : Form.links c = f at h
  induction h with
  | first h =>
    cases hf
    exact ⟨_, _, h, .stop⟩
  | join _ ho hr hb ih =>
    cases hf
    obtain ⟨l, k, hl, hres⟩ := ih rfl
    exact ⟨l, k, hl, hres.snoc ho hr hb⟩
  | _ => cases hf

theorem Chain.operand_ne_links (c c' : Chain) : c.operand ≠ .links c' := by
  cases c <;> simp [Chain.operand]

/-- A chain that has come to its end went through every chain that starts with the same tokens. -/
theorem Reads.resumes (h : Reads ending (.links c) ts l k) (h' : Reads ending (.chain c) ts s rest) :
    c.Resumes ending l k s rest := by
  obtain ⟨hs, he⟩ : Reads ending (.links c) ts s rest ∧ c.Ends rest := by
    cases h' with
    | done hs he => exact ⟨hs, he⟩
  generalize hf : Form.links c = f at h
  induction h with
  | first h =>
    cases hf
    obtain ⟨l', k', hl, hres⟩ := hs.exists_resumes
    obtain ⟨rfl, rfl⟩ := Reads.det c.operand_ne_links h hl
    exact hres
  | join _ ho hr hb ih =>
    cases hf
    cases ih h' hs rfl with
    | stop => exact absurd ho (by simp [he _ rfl])
    | step _ hr' hb' hres =>
      obtain ⟨rfl, rfl⟩ := Reads.det c.operand_ne_links hr hr'
      obtain rfl := Option.some.inj (hb.symm.trans hb')
      exact hres
  | _ => cases hf

/-- With an operator to come the chain goes on. -/
theorem Reads.step_of_operator (h : Reads ending (.links c) ts l (t :: k)) (ho : c.isOperator t = true)
    (h' : Reads ending (.chain c) ts s rest) :
    ∃ r k' m, Reads ending c.operand k r k' ∧ c.build l t.text r = some m ∧ m.Begins s := by
  cases h.resumes h' with
  | stop =>
    cases h' with
    | done _ he => exact absurd ho (by simp [he _ rfl])
  | step _ hr hb hres => exact ⟨_, _, _, hr, hb, hres.begins⟩

theorem Reads.operand_begins (h : Reads ending (.chain c) ts s rest) :
    ∃ l k, Reads ending c.operand ts l k ∧ l.Begins s := by
  cases h with
  | done h _ =>
    obtain ⟨l, k, hl, hres⟩ := h.exists_resumes
    exact ⟨l, k, hl, hres.begins⟩

theorem Reads.typed_begins (h : Reads ending .ternary ts s rest) : ∃ l k, Reads ending .typed ts l k ∧ l.Begins s := by
  cases h with
  | choice hc => exact ⟨_, _, hc, List.suffix_cons _ _⟩
  | decided h => exact ⟨_, _, h, Stmt.Begins.refl _⟩

end Jolt.Grammar
