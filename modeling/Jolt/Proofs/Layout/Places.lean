import Jolt.Proofs.Layout.Faithful

/-!
# Expressions in their places

An expression is read by the form of its own level. A looser form reads it too, if nothing tighter follows and no keyword
stands in front (`Reads.loosen_to`); in parentheses it is a literal. So an expression that can be read by the form of its
own level can be read in every place that its layout puts it in (`Expr.Readable.reads`).
-/

namespace Jolt

open Token (Kind)
open Grammar
open Layout (word enclosed)

/-! ## From tight forms to loose ones -/

/-- The form that reads the expressions of a level. -/
def Level.form : Level → Form
  | 0 => .links .assignment
  | 1 => .ternary
  | 2 => .typed
  | 3 => .links .comparison
  | 4 => .links .sum
  | 5 => .links .product
  | _ => .literal

/-- How tightly a token joins what is before it to what comes after. -/
def Token.tightness (t : Token) : Nat :=
  if isProduct t then 5
  else if isSum t then 4
  else if t.kind = .comparison then 3
  else if t.kind = .question then 2
  else 0

/-- Nothing that binds tighter than a level comes next. -/
def Follows (least : Nat) (k : List Token) : Prop :=
  ∀ t ∈ k.head?, t.tightness ≤ least

theorem Follows.mono {a b : Nat} {k : List Token} (h : Follows a k) (hab : a ≤ b) : Follows b k :=
  fun t ht => Nat.le_trans (h t ht) hab

theorem Follows.ends {c : Chain} {least : Nat} {k : List Token} (h : Follows least k)
    (hc : c = .product ∧ least < 5 ∨ c = .sum ∧ least < 4 ∨ c = .comparison ∧ least < 3) : c.Ends k := by
  intro t ht
  have := h t ht
  unfold Token.tightness at this
  rcases hc with ⟨rfl, hc⟩ | ⟨rfl, hc⟩ | ⟨rfl, hc⟩ <;> simp only [Chain.isOperator] <;> grind

theorem Follows.lacks {least : Nat} {k : List Token} (h : Follows least k) (hl : least < 2) : Lacks .question k := by
  intro t ht hq
  have htight := h t ht
  have hquestion : t.tightness = 2 := by simp [Token.tightness, isProduct, isSum, hq]
  omega

/-- One level looser. -/
theorem Grammar.Reads.loosen {ts k : List Token} {e : Expr} {a : Nat}
    (h : Reads [] (Level.form (a + 1)) ts (.expr e) k) (ha : a ≤ 5) (hk : Follows a k)
    (ht : a = 2 → Lacks .type ts) (hc : a = 0 → Lacks .condition ts ∧ Lacks .output ts) :
    Reads [] (Level.form a) ts (.expr e) k := by
  match a, ha with
  | 0, _ => exact .first (.silent (hc rfl).2 (.unmarked (hc rfl).1 h))
  | 1, _ => exact .decided h (hk.lacks (by decide))
  | 2, _ => exact .untyped (ht rfl) (.done h (hk.ends (by simp)))
  | 3, _ => exact .first (.done h (hk.ends (by simp)))
  | 4, _ => exact .first (.done h (hk.ends (by simp)))
  | 5, _ => exact .first h

/-- Some levels looser. -/
theorem Grammar.Reads.loosen_to {ts k : List Token} {e : Expr} {a b : Nat}
    (h : Reads [] (Level.form a) ts (.expr e) k) (ha : a ≤ 6) (hb : b ≤ a) (hk : Follows b k)
    (ht : b ≤ 2 → 2 < a → Lacks .type ts) (hc : b = 0 → 0 < a → Lacks .condition ts ∧ Lacks .output ts) :
    Reads [] (Level.form b) ts (.expr e) k := by
  induction a with
  | zero =>
    obtain rfl : b = 0 := by omega
    exact h
  | succ a ih =>
    rcases Nat.lt_or_eq_of_le hb with hlt | rfl
    · have hba : b ≤ a := Nat.le_of_lt_succ hlt
      refine ih (h.loosen (by omega) (hk.mono hba) ?_ ?_) (by omega) hba ?_ ?_
      · rintro rfl
        exact ht hba (by omega)
      · rintro rfl
        exact hc (by omega) (by omega)
      · exact fun h₁ h₂ => ht h₁ (by omega)
      · exact fun h₁ _ => hc h₁ (by omega)
    · exact h

/-! ## What tokens start with -/

theorem Level.le_ofOperator (o : Text) : 4 ≤ Level.ofOperator o := by
  unfold Level.ofOperator
  split <;> decide

theorem Expr.level_le (e : Expr) : e.level ≤ 6 := by
  cases e <;> simp only [Expr.level, Level.ofOperator] <;> try split
  all_goals decide

theorem Expr.tokens_eq (e : Expr) (least : Nat) : e.tokens least = enclosed (e.level < least) (e.tokens 0) := by
  cases e <;> rw [Expr.tokens, Expr.tokens] <;> simp [enclosed]

theorem Expr.front_eq (e : Expr) (least : Nat) : e.front least = if e.level < least then none else e.front 0 := by
  cases e <;> rw [Expr.front, Expr.front] <;> simp

theorem Expr.tokens_of_le {e : Expr} {least : Nat} (h : least ≤ e.level) : e.tokens least = e.tokens 0 := by
  rw [e.tokens_eq least]
  simp [enclosed, Nat.not_lt.2 h]

theorem Expr.tokens_of_lt {e : Expr} {least : Nat} (h : e.level < least) :
    e.tokens least = word .openParen (utf8 "(") :: (e.tokens 0 ++ [word .closedParen (utf8 ")")]) := by
  rw [e.tokens_eq least]
  simp [enclosed, h]

theorem Expr.front_of_le {e : Expr} {least : Nat} (h : least ≤ e.level) : e.front least = e.front 0 := by
  rw [e.front_eq least, if_neg (Nat.not_lt.2 h)]

section Bare

variable (l r c y n : Expr) (o text : Text) (t v : Stmt)

theorem Expr.tokens_binary : (Expr.binary l o r).tokens 0 =
    l.tokens (Level.ofOperator o) ++ word .binaryOperator o :: r.tokens (Level.ofOperator o + 1) := by
  simp [Expr.tokens, enclosed]

theorem Expr.tokens_comparison : (Expr.comparison l o r).tokens 0 =
    l.tokens Level.comparison ++ word .comparison o :: r.tokens Level.sum := by
  simp [Expr.tokens, enclosed]

theorem Expr.tokens_ternary : (Expr.ternary c y n).tokens 0 = c.tokens Level.type ++ word .question (utf8 "?") ::
    if y.incomplete then [] else y.tokens Level.type ++ word .colon (utf8 ":") :: n.tokens Level.type := by
  simp [Expr.tokens, enclosed]

theorem Expr.tokens_typeOf : (Expr.typeOf r).tokens 0 = word .type (utf8 "type") :: r.tokens Level.comparison := by
  simp [Expr.tokens, enclosed]

theorem Expr.tokens_assign : (Expr.assign t o v).tokens 0 =
    t.tokens Level.ternary ++ word .equals o :: v.tokens Level.ternary := by
  simp [Expr.tokens, enclosed]

theorem Expr.tokens_unrecognized : (Expr.unrecognized text).tokens 0 =
    if text.isEmpty then [] else [word (Token.kindOf text) text] := by
  simp [Expr.tokens, enclosed]

end Bare

theorem head?_append_cons {ts us : List Token} {t u : Token} (h : u ∈ (ts ++ t :: us).head?) : u ∈ ts.head? ∨ u = t := by
  cases ts with
  | nil => exact .inr (by simpa using h.symm)
  | cons v ts => exact .inl h

/-- A keyword at the front of an expression is a placeholder, unless it asks for a type. -/
theorem Expr.front_of_head (e : Expr) {least : Nat} (hl : 1 ≤ least) {t : Token} (ht : t ∈ (e.tokens least).head?)
    (hk : t.kind ∈ keywordKinds) (hy : t.kind = .type → 3 ≤ least) : e.front least = some t.kind := by
  by_cases hlt : e.level < least
  · rw [Expr.tokens_of_lt hlt] at ht
    obtain rfl : word .openParen (utf8 "(") = t := by simpa using ht
    exact absurd hk (by decide)
  rw [e.front_of_le (Nat.not_lt.1 hlt)]
  rw [e.tokens_of_le (Nat.not_lt.1 hlt)] at ht
  cases e with
  | number x | string x =>
    obtain rfl : word _ _ = t := by simpa [Expr.tokens, enclosed] using ht
    exact absurd hk (by simp [keywordKinds, word])
  | identifier name =>
    have hkind : t.kind = .identifier ∨ t.kind = .openParen := by
      rw [Expr.tokens] at ht
      cases hn : Layout.isKeyword name <;> simp [enclosed, hn] at ht <;> simp [← ht, word]
    rcases hkind with h | h <;> rw [h] at hk <;> exact absurd hk (by decide)
  | binary left operator right =>
    rw [Expr.tokens_binary] at ht
    rcases head?_append_cons ht with ht | rfl
    · have hop := Level.le_ofOperator operator
      have := left.front_of_head (Nat.le_trans (by decide) hop) ht hk fun _ => Nat.le_trans (by decide) hop
      simpa [Expr.front] using this
    · exact absurd hk (by simp [word, keywordKinds])
  | comparison left operator right =>
    rw [Expr.tokens_comparison] at ht
    rcases head?_append_cons ht with ht | rfl
    · have := left.front_of_head (by decide) ht hk (by simp)
      simpa [Expr.front] using this
    · exact absurd hk (by simp [word, keywordKinds])
  | ternary condition yes no =>
    rw [Expr.tokens_ternary] at ht
    rcases head?_append_cons ht with ht | rfl
    · have hlevel : least ≤ 1 := Nat.not_lt.1 hlt
      have := condition.front_of_head (by decide) ht hk fun h => absurd (hy h) (by omega)
      simpa [Expr.front] using this
    · exact absurd hk (by decide)
  | typeOf operand =>
    rw [Expr.tokens_typeOf] at ht
    obtain rfl : word .type (utf8 "type") = t := by simpa using ht
    exact absurd (hy rfl) hlt
  | assign target operator value => exact absurd hl hlt
  | unrecognized text =>
    rw [Expr.tokens_unrecognized] at ht
    split at ht
    · cases ht
    · obtain rfl : word (Token.kindOf text) text = t := by simpa using ht
      simp_all [Expr.front, word]
  | missing => simp [Expr.tokens, enclosed] at ht

theorem Expr.eq_of_tokens_nil {e : Expr} (hw : e.WellFormed) {least : Nat} (h : e.tokens least = []) :
    e = .unrecognized [] := by
  cases e with
  | unrecognized text =>
    cases text with
    | nil => rfl
    | cons c r => by_cases hl : Level.literal < least <;> simp [Expr.tokens, enclosed, Expr.level, hl] at h
  | missing => exact hw.elim
  | _ =>
    rw [Expr.tokens] at h
    simp only [enclosed] at h
    repeat' split at h
    all_goals simp at h

theorem Expr.head?_tokens_append {e : Expr} (hw : e.WellFormed) (hc : e.incomplete = false) {least : Nat}
    {ts : List Token} : (e.tokens least ++ ts).head? = (e.tokens least).head? := by
  cases h : e.tokens least with
  | nil =>
    rw [Expr.eq_of_tokens_nil hw h] at hc
    cases hc
  | cons t us => rfl

theorem Stmt.head?_tokens_append {s : Stmt} (hw : s.WellFormed) (hc : s.incomplete = false) {least : Nat}
    {ts : List Token} : (s.tokens least ++ ts).head? = (s.tokens least).head? := by
  cases s with
  | expr e => exact Expr.head?_tokens_append hw hc
  | block => exact hw.elim
  | _ => rfl

section Keep

variable {e : Expr} {k : List Token} (hw : e.WellFormed)

include hw in
theorem Expr.nil_of_tokens_nil (hk : e.incomplete = true → k = []) (h : e.tokens 0 = []) : k = [] :=
  hk (Expr.eq_of_tokens_nil hw h ▸ rfl)

/-- A keyword that is not the placeholder at the front of an expression is not its first token. -/
theorem Expr.lacks (hk : e.tokens 0 = [] → k = []) {kind : Kind} (hkind : kind ∈ keywordKinds) (hl : 1 ≤ e.level)
    (hy : kind = .type → 3 ≤ e.level) (hf : e.front 0 ≠ some kind) : Lacks kind (e.tokens 0 ++ k) := by
  intro t ht hkt
  cases hts : e.tokens 0 with
  | nil =>
    rw [hts, hk hts] at ht
    cases ht
  | cons u us =>
    rw [hts] at ht
    have hhead : t ∈ (e.tokens e.level).head? := by
      rw [Expr.tokens_of_le (Nat.le_refl _), hts]
      exact ht
    have := e.front_of_head hl hhead (hkt ▸ hkind) (hkt ▸ hy)
    rw [e.front_of_le (Nat.le_refl _), hkt] at this
    exact hf this

/-- No keyword that takes a form from its own level to a looser one comes first. -/
theorem Expr.lacks_of_opens {f : Form} (hk : e.tokens 0 = [] → k = []) (ho : ∀ kind ∈ e.front 0, kind ∉ f.taken) :
    (f.place ≤ 2 → 2 < e.level → Lacks .type (e.tokens 0 ++ k)) ∧
      (f.place = 0 → 0 < e.level → Lacks .condition (e.tokens 0 ++ k) ∧ Lacks .output (e.tokens 0 ++ k)) := by
  have hfront : ∀ kind ∈ f.taken, e.front 0 ≠ some kind := fun kind hkind hfront => ho kind hfront hkind
  refine ⟨fun h₁ h₂ => ?_, fun h₁ h₂ => ⟨?_, ?_⟩⟩
  · exact e.lacks hk (by decide) (Nat.le_trans (by decide) h₂) (fun _ => h₂) (hfront _ (Form.type_mem_taken h₁))
  · exact e.lacks hk (by decide) h₂ (fun h => by cases h) (hfront _ (Form.taken_of_place h₁).1)
  · exact e.lacks hk (by decide) h₂ (fun h => by cases h) (hfront _ (Form.taken_of_place h₁).2)

theorem Expr.lacks_placed {f : Form} (hk : e.tokens 0 = [] → k = []) (ho : e.Opens f) (hp : f.place = 1) {kind : Kind}
    (hkind : kind ∈ f.taken) (hne : kind = .condition ∨ kind = .output) : Lacks kind (e.tokens f.place ++ k) := by
  unfold Expr.Opens at ho
  split at ho
  · rename_i hlt
    rw [Expr.tokens_of_lt hlt]
    rcases hne with rfl | rfl <;> simp [Lacks, word]
  · rename_i hlt
    have hl : f.place ≤ e.level := Nat.not_lt.1 hlt
    rw [e.front_of_le hl] at ho
    rw [Expr.tokens_of_le hl]
    refine e.lacks hk ?_ (hp ▸ hl) ?_ fun hfront => ho kind hfront hkind
    · rcases hne with rfl | rfl <;> decide
    · rcases hne with rfl | rfl <;> simp

theorem lacks_openParen {kind : Kind} {ts : List Token} (h : kind ≠ .openParen) :
    Lacks kind (word .openParen (utf8 "(") :: ts) := by
  simp [Lacks, word, h.symm]

/-- The form of its own level reads the tokens of the expression, whatever comes after them. -/
def Expr.Readable (e : Expr) : Prop :=
  ∀ k, (e.incomplete = true → k = []) → Follows e.level k → Reads [] (Level.form e.level) (e.tokens 0 ++ k) (.expr e) k

variable (hk : e.incomplete = true → k = []) (h : e.Readable)

include hw hk h

theorem Expr.Readable.loosely {f : Form} (hl : f.place ≤ e.level) (ho : ∀ kind ∈ e.front 0, kind ∉ f.taken)
    (hf : Follows f.place k) : Reads [] (Level.form f.place) (e.tokens 0 ++ k) (.expr e) k := by
  obtain ⟨ht, hc⟩ := Expr.lacks_of_opens (Expr.nil_of_tokens_nil hw hk) ho
  exact (h k hk (hf.mono hl)).loosen_to e.level_le hl hf ht hc

omit hk in
/-- In parentheses every complete expression is a literal. -/
theorem Expr.Readable.enclosed (hc : e.incomplete = false) (ho : ∀ kind ∈ e.front 0, kind ∉ keywordKinds) :
    Reads [] .literal (word .openParen (utf8 "(") :: (e.tokens 0 ++ word .closedParen (utf8 ")") :: k)) (.expr e) k := by
  have hf : Follows 0 (word .closedParen (utf8 ")") :: k) := by
    simp [Follows, word, Token.tightness, isProduct, isSum]
  have := Expr.Readable.loosely (f := .links .assignment) hw (by simp [hc]) h (Nat.zero_le _) ho hf
  exact .group rfl (.done this (by simp [Chain.Ends, Chain.isOperator, word])) rfl

/-- Read in its place. -/
theorem Expr.Readable.placed {f : Form} (ho : e.Opens f) (he : e.incomplete = true → f.place ≤ e.level)
    (hf : Follows f.place k) : Reads [] (Level.form f.place) (e.tokens f.place ++ k) (.expr e) k := by
  unfold Expr.Opens at ho
  split at ho
  · rename_i hlt
    have hc : e.incomplete = false := by
      by_contra hi
      exact Nat.not_lt.2 (he (by simpa using hi)) hlt
    have hlit : Reads [] (Level.form 6) _ (.expr e) k := Expr.Readable.enclosed hw h hc ho
    rw [Expr.tokens_of_lt hlt, List.cons_append, List.append_assoc]
    exact hlit.loosen_to (Nat.le_refl 6) f.place_le hf (fun _ _ => lacks_openParen (by decide))
      fun _ _ => ⟨lacks_openParen (by decide), lacks_openParen (by decide)⟩
  · rename_i hlt
    have hl : f.place ≤ e.level := Nat.not_lt.1 hlt
    rw [e.front_of_le hl] at ho
    rw [Expr.tokens_of_le hl]
    exact Expr.Readable.loosely hw hk h hl ho hf

/-- The forms of operands read an expression in its place. -/
theorem Expr.Readable.reads {f : Form} (hform : f ≠ .statement ∧ ∀ b, f ≠ .items b) (ho : e.Opens f)
    (he : e.incomplete = true → f.place ≤ e.level) (hf : Follows f.place k) (hc : ∀ c, f = .chain c → c.Ends k) :
    Reads [] f (e.tokens f.place ++ k) (.expr e) k := by
  have hplaced := Expr.Readable.placed hw hk h ho he hf
  have hn := Expr.nil_of_tokens_nil hw hk
  cases f with
  | literal | typed | ternary => exact hplaced
  | links c => cases c <;> exact hplaced
  | chain c => cases c <;> exact .done hplaced (hc _ rfl)
  | conditional =>
    exact .unmarked (e.lacks_placed hn ho rfl (by decide) (.inl rfl)) hplaced
  | output =>
    exact .silent (e.lacks_placed hn ho rfl (by decide) (.inr rfl))
      (.unmarked (e.lacks_placed hn ho rfl (by decide) (.inl rfl)) hplaced)
  | statement => exact absurd rfl hform.1
  | items b => exact absurd rfl (hform.2 b)

end Keep

/-! ## Operands and their operator -/

/-- The expression `x` is `l` and `r` with the operator `t` of the chain `c` between them. -/
structure Expr.Joined (c : Chain) (l : Expr) (t : Token) (r x : Expr) : Prop where
  inner : c ≠ .assignment
  operator : c.isOperator t = true
  tight : t.tightness = (Form.links c).place
  build : c.build (.expr l) t.text (.expr r) = some (.expr x)
  tokens : x.tokens 0 = l.tokens (Form.links c).place ++ t :: r.tokens c.operand.place
  level : x.level = (Form.links c).place
  incomplete : x.incomplete = r.incomplete

theorem Grammar.Chain.place_ofOperator (o : Text) :
    (Form.links (Chain.ofOperator o)).place = Level.ofOperator o ∧
      (Chain.ofOperator o).operand.place = Level.ofOperator o + 1 := by
  unfold Chain.ofOperator Level.ofOperator
  split <;> exact ⟨rfl, rfl⟩

theorem Expr.joined_binary {l r : Expr} {o : Text} (ho : o ∈ binaryOperators) :
    Expr.Joined (Chain.ofOperator o) l (word .binaryOperator o) r (.binary l o r) := by
  have hall : ∀ o ∈ binaryOperators, Chain.ofOperator o ≠ .assignment ∧
      (Chain.ofOperator o).isOperator (word .binaryOperator o) = true ∧
      (word .binaryOperator o).tightness = Level.ofOperator o := by decide
  obtain ⟨hinner, hoperator, htight⟩ := hall o ho
  obtain ⟨hplace, hoperand⟩ := Chain.place_ofOperator o
  refine ⟨hinner, hoperator, htight.trans hplace.symm, ?_, ?_, hplace.symm, rfl⟩
  · by_cases hp : o = utf8 "*" ∨ o = utf8 "/" <;> simp [Chain.ofOperator, hp, Chain.build, word]
  · rw [Expr.tokens_binary, hplace, hoperand]

theorem Expr.joined_comparison {l r : Expr} {o : Text} :
    Expr.Joined .comparison l (word .comparison o) r (.comparison l o r) where
  inner := by decide
  operator := rfl
  tight := by simp [Token.tightness, isProduct, isSum, word, Form.place]
  build := rfl
  tokens := Expr.tokens_comparison l r o
  level := rfl
  incomplete := rfl

end Jolt
