import Jolt.Proofs.Grammar.Rules

/-!
# Placeholders

Where an operand is expected and another token comes, the tree keeps the text of that token; at the end of the input it
keeps an empty text. A tree without an empty placeholder was read without looking past the last token: a separator and
anything after it may follow (`Reads.append`, `Reads.append_items`), and a string that is not closed was not among the
tokens (`Reads.unclosed`).
-/

namespace Jolt

mutual

/-- The texts that stand for operands in an expression, from left to right. -/
def Expr.placeholders : Expr → List Text
  | .binary left _ right => left.placeholders ++ right.placeholders
  | .comparison left _ right => left.placeholders ++ right.placeholders
  | .ternary condition yes no => condition.placeholders ++ yes.placeholders ++ no.placeholders
  | .typeOf operand => operand.placeholders
  | .assign target _ value => target.placeholders ++ value.placeholders
  | .unrecognized text => [text]
  | _ => []

/-- The texts that stand for operands in a statement. -/
def Stmt.placeholders : Stmt → List Text
  | .expr e => e.placeholders
  | .output value => value.placeholders
  | .comment _ => []
  | .ifThen condition body => condition.placeholders ++ Stmt.placeholdersAll body
  | .block body => Stmt.placeholdersAll body

/-- The texts that stand for operands in statements. -/
def Stmt.placeholdersAll : List Stmt → List Text
  | [] => []
  | s :: rest => s.placeholders ++ Stmt.placeholdersAll rest

end

namespace Grammar

open Token (Kind)

theorem Chain.placeholders_build {c : Chain} {l r s : Stmt} {o : Text} (h : c.build l o r = some s) :
    s.placeholders = l.placeholders ++ r.placeholders := by
  rcases Chain.build_cases h with ⟨a, b, -, rfl, rfl, rfl⟩ | ⟨a, b, -, rfl, rfl, rfl⟩ | ⟨-, rfl⟩ <;> rfl

theorem Reads.rest_of_nil {ending : Text} {f : Form} {rest : List Token} {s : Stmt} (h : Reads ending f [] s rest) :
    rest = [] :=
  List.suffix_nil.1 h.suffix

/-- Where no tokens are left, all that is read is the placeholder for the end of the input. -/
theorem Reads.eq_of_nil {ending : Text} {f : Form} {ts rest : List Token} {s : Stmt} (h : Reads ending f ts s rest)
    (hts : ts = []) (hf : ∀ b, f ≠ .items b) : s = .expr (.unrecognized ending) := by
  induction h with
  | identifier | number | string | group | stray | typeOf | ifThen | marked | output | comment => cases hts
  | close | finish | skip | item => exact absurd rfl (hf _)
  | atEnd => rfl
  | join h₁ | choice h₁ =>
    subst hts
    cases h₁.rest_of_nil
  | @first c _ _ _ _ ih => exact ih hts (by cases c <;> simp [Chain.operand])
  | done _ _ ih | untyped _ _ ih | decided _ _ ih | unmarked _ _ ih | silent _ _ ih | plain _ _ ih =>
    exact ih hts (by simp)

/-- Nothing but a list of statements can be read off no tokens without a placeholder. -/
theorem Reads.placeholder_of_nil {f : Form} {ts rest : List Token} {s : Stmt} (h : Reads [] f ts s rest)
    (hts : ts = []) (hf : ∀ b, f ≠ .items b) : [] ∈ s.placeholders := by
  rw [h.eq_of_nil hts hf]
  exact List.mem_cons_self

/-- A tree with an empty placeholder was read up to the end of the input. -/
theorem Reads.rest_of_placeholder {f : Form} {ts rest : List Token} {s : Stmt} (h : Reads [] f ts s rest)
    (hts : ∀ t ∈ ts, t.text ≠ []) (hs : [] ∈ s.placeholders) : rest = [] := by
  induction h with
  | identifier | number | string | comment | close =>
    simp [Stmt.placeholders, Expr.placeholders, Stmt.placeholdersAll] at hs
  | @stray t ts _ => exact absurd (by simpa [Stmt.placeholders, Expr.placeholders] using hs) (hts t (by simp)).symm
  | atEnd | finish => rfl
  | group _ _ _ ih => cases ih (fun t h => hts t (List.mem_cons_of_mem _ h)) hs
  | typeOf _ _ ih | output _ _ ih | marked _ _ _ ih => exact ih (fun t h => hts t (List.mem_cons_of_mem _ h)) hs
  | skip _ _ ih => exact ih (fun t h => hts t (List.mem_cons_of_mem _ h)) hs
  | first _ ih | done _ _ ih | untyped _ _ ih | decided _ _ ih | unmarked _ _ ih | silent _ _ ih | plain _ _ ih =>
    exact ih hts hs
  | join h₁ _ _ hb ih₁ ih₂ =>
    rw [Chain.placeholders_build hb, List.mem_append] at hs
    rcases hs with hs | hs
    · cases ih₁ hts hs
    · exact ih₂ (fun t h => hts t (h₁.suffix.subset (List.mem_cons_of_mem _ h))) hs
  | choice h₁ _ h₂ h₃ ih₁ ih₂ ih₃ =>
    have hts₁ := fun t h => hts t (h₁.suffix.subset (List.mem_cons_of_mem _ h))
    simp only [Stmt.placeholders, Expr.placeholders, List.mem_append] at hs ih₁ ih₂ ih₃
    rcases hs with (hs | hs) | hs
    · cases ih₁ hts hs
    · rw [ih₂ hts₁ hs] at h₃
      exact h₃.rest_of_nil
    · exact ih₃ (fun t h => hts₁ t (h₂.suffix.subset (List.mem_of_mem_drop h))) hs
  | ifThen _ h₁ _ _ ih₁ ih₂ =>
    have hts' := fun t h => hts t (List.mem_cons_of_mem _ h)
    rw [Stmt.placeholders, List.mem_append] at hs
    rcases hs with hs | hs
    · cases ih₁ hts' hs
    · exact ih₂ (fun t h => hts' t (h₁.suffix.subset (List.mem_cons_of_mem _ h))) hs
  | item _ _ h₁ h₂ ih₁ ih₂ =>
    rw [Stmt.placeholders, Stmt.placeholdersAll, List.mem_append] at hs
    rcases hs with hs | hs
    · rw [ih₁ hts hs] at h₂
      exact h₂.rest_of_nil
    · exact ih₂ (fun t h => hts t (h₁.suffix.subset ((skipEndOfLine_suffix _).subset h))) hs

theorem not_reads_body_nil {ending : Text} {s : Stmt} {rest : List Token} :
    ¬ Reads ending (.items true) [] s rest := by
  intro h
  cases h

/-! ## What follows a separator is not seen -/

/-- Tokens that a separator keeps apart from what comes before them. -/
def Separated (k : List Token) : Prop :=
  ∃ e k', k = e :: k' ∧ e.kind = .endOfLine

section Separated

variable {k : List Token} (hk : Separated k)

include hk

theorem Separated.lacks {kind : Kind} {ts : List Token} (h : Lacks kind ts) (hne : kind ≠ .endOfLine) :
    Lacks kind (ts ++ k) := by
  obtain ⟨e, k', rfl, he⟩ := hk
  cases ts with
  | nil => simp [Lacks, he, hne.symm]
  | cons t ts => exact h

theorem Separated.ends {c : Chain} {ts : List Token} (h : c.Ends ts) : c.Ends (ts ++ k) := by
  obtain ⟨e, k', rfl, he⟩ := hk
  cases ts with
  | nil => cases c <;> simp [Chain.Ends, Chain.isOperator, isProduct, isSum, he]
  | cons t ts => exact h

omit hk in
theorem skipEndOfLine_append {ts : List Token} (hts : ts ≠ []) : skipEndOfLine (ts ++ k) = skipEndOfLine ts ++ k := by
  cases ts with
  | nil => exact absurd rfl hts
  | cons t ts => by_cases h : t.kind = .endOfLine <;> simp [skipEndOfLine, accept, h]

/-- A tree without an empty placeholder is read in the same way when a separator follows the tokens. -/
theorem Reads.append {f : Form} {ts rest : List Token} {s : Stmt} (h : Reads [] f ts s rest)
    (hs : [] ∉ s.placeholders) (hf : f ≠ .items false) : Reads [] f (ts ++ k) s (rest ++ k) := by
  induction h with
  | identifier h => exact .identifier h
  | number h hx => exact .number h hx
  | string h hx => exact .string h hx
  | group h _ hu ih => exact .group h (ih hs (by simp)) hu
  | stray h => exact .stray h
  | atEnd => simp [Stmt.placeholders, Expr.placeholders] at hs
  | @first c _ _ _ _ ih => exact .first (ih hs (by cases c <;> simp [Chain.operand]))
  | @join c _ _ _ _ _ _ _ _ ho _ hb ih₁ ih₂ =>
    rw [Chain.placeholders_build hb, List.mem_append, not_or] at hs
    exact .join (ih₁ hs.1 (by simp)) ho (ih₂ hs.2 (by cases c <;> simp [Chain.operand])) hb
  | done _ he ih => exact .done (ih hs (by simp)) (hk.ends he)
  | typeOf ht _ ih => exact .typeOf ht (ih hs (by simp))
  | untyped ht _ ih => exact .untyped (hk.lacks ht (by simp)) (ih hs (by simp))
  | @choice _ _ _ ts₂ _ _ _ _ _ hq _ hn ih₁ ih₂ ih₃ =>
    simp only [Stmt.placeholders, Expr.placeholders, List.mem_append, not_or] at hs
    -- a token stands between the two values, or the second would be an empty placeholder
    obtain ⟨x, ts₂, rfl⟩ : ∃ x ts, ts₂ = x :: ts := by
      cases ts₂ with
      | nil => exact absurd (hn.placeholder_of_nil rfl (by simp)) hs.2
      | cons x ts => exact ⟨x, ts, rfl⟩
    exact .choice (ih₁ hs.1.1 (by simp)) hq (ih₂ hs.1.2 (by simp)) (ih₃ hs.2 (by simp))
  | decided _ hq ih => exact .decided (ih hs (by simp)) (hk.lacks hq (by simp))
  | ifThen ht _ hu _ ih₁ ih₂ =>
    rw [Stmt.placeholders, List.mem_append, not_or] at hs
    exact .ifThen ht (ih₁ hs.1 (by simp)) hu (ih₂ hs.2 (by simp))
  | marked ht _ hl ih => exact .marked ht (ih hs (by simp)) (hk.lacks hl (by simp))
  | unmarked hl _ ih => exact .unmarked (hk.lacks hl (by simp)) (ih hs (by simp))
  | output ht _ ih => exact .output ht (ih hs (by simp))
  | silent hl _ ih => exact .silent (hk.lacks hl (by simp)) (ih hs (by simp))
  | comment h => exact .comment h
  | plain hl _ ih => exact .plain (hk.lacks hl (by simp)) (ih hs (by simp))
  | close h => exact .close h
  | finish => exact absurd rfl hf
  | skip h _ ih => exact .skip h (ih hs hf)
  | @item b _ _ ts₁ _ _ _ he hc _ hm ih₁ ih₂ =>
    rw [Stmt.placeholders, Stmt.placeholdersAll, List.mem_append, not_or] at hs
    obtain rfl : b = true := by simpa using hf
    have hts₁ : ts₁ ≠ [] := by rintro rfl; exact not_reads_body_nil hm
    refine .item he hc (ih₁ hs.1 (by simp)) ?_
    rw [skipEndOfLine_append hts₁]
    exact ih₂ hs.2 hf

end Separated

/-- Two lists of statements with a separator between them. -/
theorem Reads.append_items {ts us : List Token} {e : Token} {p q : List Stmt}
    (h : Reads [] (.items false) ts (.block p) []) (hp : [] ∉ Stmt.placeholdersAll p) (he : e.kind = .endOfLine)
    (h' : Reads [] (.items false) us (.block q) []) : Reads [] (.items false) (ts ++ e :: us) (.block (p ++ q)) [] := by
  generalize hf : Form.items false = f at h
  generalize hs : Stmt.block p = s at h
  generalize hr : ([] : List Token) = rest at h
  induction h generalizing p with cases hf
  | finish =>
    cases hs
    exact .skip he h'
  | skip ht _ ih => exact .skip ht (ih hp rfl hs hr)
  | @item _ t ts ts₁ rest s more ht hc h₁ h₂ _ ih =>
    cases hs
    rw [Stmt.placeholdersAll, List.mem_append, not_or] at hp
    have h₁' := h₁.append ⟨e, us, rfl, he⟩ hp.1 (by simp)
    refine .item ht hc h₁' ?_
    cases ts₁ with
    | nil =>
      subst hr
      cases h₂ with
      | finish => simpa [skipEndOfLine, accept, he] using h'
    | cons x ts₁ =>
      rw [skipEndOfLine_append (by simp)]
      exact ih hp.2 rfl rfl hr

/-! ## Strings that are not closed -/

/-- The last token is a string without its closing quote. -/
def Unclosed (ts : List Token) : Prop :=
  ∃ v ∈ ts.getLast?, v.kind = .string ∧ unquote? v.text = none

theorem Unclosed.tail {t : Token} {ts : List Token} (h : Unclosed (t :: ts))
    (ht : t.kind = .string → unquote? t.text ≠ none) : Unclosed ts := by
  obtain ⟨v, hv, hk, hq⟩ := h
  cases ts with
  | nil =>
    obtain rfl : t = v := by simpa using hv
    exact absurd hq (ht hk)
  | cons u ts => exact ⟨v, by simpa [List.getLast?_cons_cons] using hv, hk, hq⟩

/-- A string without its closing quote is never taken, but between the two values of a choice that ends the input. -/
theorem Reads.unclosed {f : Form} {ts rest : List Token} {s : Stmt} (h : Reads [] f ts s rest)
    (hs : [] ∉ s.placeholders) (hts : Unclosed ts) : Unclosed rest := by
  induction h with
  | identifier h | stray h | comment h | close h =>
    refine hts.tail fun hk => ?_
    simp_all [isStray]
  | number h =>
    refine hts.tail fun hk => ?_
    simp_all
  | string _ hx => exact hts.tail fun _ => by simp [hx]
  | group h _ hu ih => exact (ih hs (hts.tail (by simp [h]))).tail (by simp [hu])
  | atEnd | finish => exact hts
  | first _ ih => exact ih hs hts
  | @join c t _ _ _ _ _ _ _ ho _ hb ih₁ ih₂ =>
    rw [Chain.placeholders_build hb, List.mem_append, not_or] at hs
    refine ih₂ hs.2 ((ih₁ hs.1 hts).tail fun hk => ?_)
    cases c <;> simp [Chain.isOperator, isProduct, isSum, hk] at ho
  | done _ _ ih | untyped _ _ ih | decided _ _ ih | unmarked _ _ ih | silent _ _ ih | plain _ _ ih => exact ih hs hts
  | typeOf h _ ih | marked h _ _ ih | output h _ ih | skip h _ ih => exact ih hs (hts.tail (by simp [h]))
  | @choice _ _ _ ts₂ _ _ _ _ _ hq _ hn ih₁ ih₂ ih₃ =>
    simp only [Stmt.placeholders, Expr.placeholders, List.mem_append, not_or] at hs
    obtain ⟨v, hv, hbad⟩ := ih₂ hs.1.2 ((ih₁ hs.1.1 hts).tail (by simp [hq]))
    refine ih₃ hs.2 ⟨v, ?_, hbad⟩
    cases ts₂ with
    | nil => simp at hv
    | cons x ts₂ =>
      cases ts₂ with
      | nil => exact absurd (hn.placeholder_of_nil rfl (by simp)) hs.2
      | cons y ts₂ => simpa [List.getLast?_cons_cons] using hv
  | ifThen ht _ hu _ ih₁ ih₂ =>
    rw [Stmt.placeholders, List.mem_append, not_or] at hs
    exact ih₂ hs.2 ((ih₁ hs.1 (hts.tail (by simp [ht]))).tail (by simp [hu]))
  | @item _ _ _ ts₁ _ _ _ _ _ _ _ ih₁ ih₂ =>
    rw [Stmt.placeholders, Stmt.placeholdersAll, List.mem_append, not_or] at hs
    have h₁ := ih₁ hs.1 hts
    refine ih₂ hs.2 ?_
    cases ts₁ with
    | nil => exact h₁
    | cons x ts₁ =>
      by_cases hx : x.kind = .endOfLine
      · simpa [skipEndOfLine, accept, hx] using h₁.tail (by simp [hx])
      · simpa [skipEndOfLine, accept, hx] using h₁

end Grammar

end Jolt
