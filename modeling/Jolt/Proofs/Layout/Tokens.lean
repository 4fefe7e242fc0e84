import Jolt.Layout
import Jolt.Proofs.Token.Spell

/-!
# The tokens of a layout

`Expr.tokens` and its companions follow `Expr.layout` and give the tokens that are written, without the blanks between
them. Scanning the layout of a well-formed tree gives these tokens back (`Program.spells_layout`), if no `>` comes after
a `<` that compares: such a `<` would open a comment.
-/

namespace Jolt

open Token (Kind)
open Grammar (lexeme)

/-! ## Tokens -/

namespace Layout

/-- Tokens in parentheses, if needed. -/
def enclosed (needed : Bool) (ts : List Token) : List Token :=
  if needed then word .openParen (utf8 "(") :: (ts ++ [word .closedParen (utf8 ")")]) else ts

/-- The token that ends the line of a statement. -/
def terminators (s : Stmt) : List Token :=
  if s.needsTerminator && !s.incomplete then [word .endOfLine (utf8 ";")] else []

end Layout

open Layout

mutual

/-- The tokens of an expression in a place that needs at least the level `least`. -/
def Expr.tokens (least : Level) (e : Expr) : List Token :=
  enclosed (e.level < least) <|
    match e with
    | .number x => [word .number (x.write numerals)]
    | .string s => [word .string (utf8 "\"" ++ s ++ utf8 "\"")]
    | .identifier name => enclosed (isKeyword name) [word .identifier name]
    | .binary left operator right =>
      left.tokens (Level.ofOperator operator) ++ word .binaryOperator operator
        :: right.tokens (Level.ofOperator operator + 1)
    | .comparison left operator right =>
      left.tokens Level.comparison ++ word .comparison operator :: right.tokens Level.sum
    | .ternary condition yes no =>
      condition.tokens Level.type ++ word .question (utf8 "?")
        :: if yes.incomplete then []
          else yes.tokens Level.type ++ word .colon (utf8 ":") :: no.tokens Level.type
    | .typeOf operand => word .type (utf8 "type") :: operand.tokens Level.comparison
    | .assign target operator value =>
      target.tokens Level.ternary ++ word .equals operator :: value.tokens Level.ternary
    | .unrecognized text => if text.isEmpty then [] else [word (Token.kindOf text) text]
    | .missing => []

/-- The tokens of a statement; `least` applies where it is an expression. -/
def Stmt.tokens (least : Level) : Stmt → List Token
  | .expr e => e.tokens least
  | .output value => word .output (utf8 "out") :: value.tokens Level.ternary
  | .comment text => [word .comment text]
  | .ifThen condition body =>
    word .condition (utf8 "if") :: (condition.tokens Level.assignment
      ++ word .openBlock (utf8 "\x7b") :: (Stmt.tokensAll body ++ [word .closeBlock (utf8 "\x7d")]))
  | .block _ => []

/-- The tokens of statements, each with its terminator. -/
def Stmt.tokensAll : List Stmt → List Token
  | [] => []
  | s :: rest => s.tokens Level.assignment ++ terminators s ++ Stmt.tokensAll rest

end

/-! ## Layouts -/

namespace Layout

open Token

/-- The text is written for the tokens: before anything that does not continue it, it spells them. -/
def Writes (t : Text) (ts : List Token) : Prop :=
  ∀ u us, Apart u → StaysOpen (ts ++ us) → Spells u us → Spells (t ++ u) (ts ++ us)

theorem StaysOpen.of_append {ts us : List Token} (h : StaysOpen (ts ++ us)) : StaysOpen us :=
  h.sublist (List.sublist_append_right ts us)

theorem writes_nil : Writes [] [] := fun _ _ _ _ h => h

theorem Writes.append {t t' : Text} {ts ts' : List Token} (h : Writes t ts) (h' : Writes t' ts')
    (ha : ∀ u, Apart u → Apart (t' ++ u)) : Writes (t ++ t') (ts ++ ts') := by
  intro u us hu ho hs
  rw [List.append_assoc, List.append_assoc] at *
  exact h _ _ (ha u hu) ho (h' u us hu (StaysOpen.of_append ho) hs)

theorem Writes.blank {c : UInt8} {t : Text} {ts : List Token} (h : Writes t ts) (hc : Text.isBlank c = true) :
    Writes (c :: t) ts :=
  fun u us hu ho hs => (h u us hu ho hs).blank hc

theorem Writes.indentation {t : Text} {ts : List Token} (h : Writes t ts) (depth : Nat) :
    Writes (Layout.indentation depth ++ t) ts := by
  intro u us hu ho hs
  rw [List.append_assoc]
  exact (h u us hu ho hs).spaces _

/-- A token that a blank follows, or what else does not continue it. -/
theorem Writes.word {t text : Text} {kind : Kind} {ts : List Token} (h : Writes t ts) (hp : Plain kind text)
    (ht : ∀ u, Apart u → Apart (t ++ u)) : Writes (text ++ t) (Layout.word kind text :: ts) := by
  intro u us hu ho hs
  obtain ⟨c, r, rfl, hb, hc, hk, hq⟩ := hp
  have := (h u us hu (List.Pairwise.of_cons ho) hs).word hb hc (ht u hu) (fun _ => hk) hq ho
  simpa using this

theorem writes_word {text : Text} {kind : Kind} (hp : Plain kind text) : Writes text [Layout.word kind text] := by
  have := writes_nil.word hp fun u hu => hu
  simpa using this

theorem Writes.keyword {c : UInt8} {r t : Text} {kind : Kind} {ts : List Token} (h : Writes t ts)
    (hk : keyword? (c :: r) = some kind) : Writes (c :: r ++ Byte.space :: t) (Layout.word kind (c :: r) :: ts) := by
  intro u us hu ho hs
  have := (h u us hu (List.Pairwise.of_cons ho) hs).keyword hk
  simpa using this

theorem utf8_space : utf8 " " = [Byte.space] := rfl
theorem utf8_openParen : utf8 "(" = [Byte.openParen] := rfl
theorem utf8_closedParen : utf8 ")" = [Byte.closedParen] := rfl

theorem apart_space (u : Text) : Apart (Byte.space :: u) :=
  apart_cons.2 (by decide)

theorem spells_closedParen {u : Text} {us : List Token} (h : Spells u us) :
    Spells (Byte.closedParen :: u) (Layout.word .closedParen (utf8 ")") :: us) :=
  h.token (r := []) (by decide) rfl

theorem writes_enclosed {t : Text} {ts : List Token} (h : Writes t ts) (needed : Bool) :
    Writes (parenthesized needed t) (enclosed needed ts) := by
  cases needed with
  | false => exact h
  | true =>
    intro u us hu ho hs
    have hopen : StaysOpen ((ts ++ [Layout.word .closedParen (utf8 ")")]) ++ us) := List.Pairwise.of_cons ho
    rw [List.append_assoc] at hopen
    have hinside := h _ _ (apart_cons.2 (by decide)) hopen (spells_closedParen hs)
    have := hinside.token (c := Byte.openParen) (r := []) (by decide) rfl
    simpa [parenthesized, enclosed, utf8_openParen, utf8_closedParen] using this

/-- Two texts with an operator between them. -/
theorem Writes.between {l r o : Text} {kind : Kind} {ls rs : List Token} (hl : Writes l ls) (hr : Writes r rs)
    (ho : Plain kind o) : Writes (l ++ spaced o ++ r) (ls ++ Layout.word kind o :: rs) := by
  have hr' : Writes (Byte.space :: r) rs := hr.blank (by decide)
  have ho' : Writes (Byte.space :: (o ++ Byte.space :: r)) (Layout.word kind o :: rs) :=
    (hr'.word ho fun u _ => apart_space _).blank (by decide)
  have := hl.append ho' fun u _ => apart_space _
  simpa [spaced, utf8_space] using this

theorem isKeyword_eq (w : Text) : isKeyword w = (keyword? w).isSome := by
  unfold isKeyword keyword?
  split
  · simp_all
  split
  · simp_all
  split <;> simp_all

theorem writes_name {name : Text} (hne : name ≠ []) (hl : ∀ b ∈ name, Text.isLetter b = true) :
    Writes (parenthesized (isKeyword name) name) (enclosed (isKeyword name) [Layout.word .identifier name]) := by
  rw [isKeyword_eq]
  cases hk : keyword? name with
  | none => exact writes_word (plain_name hne hl hk)
  | some kind =>
    -- the parenthesis behind the name keeps it from being a keyword
    intro u us hu ho hs
    obtain ⟨c, r, rfl⟩ := List.exists_cons_of_ne_nil hne
    have hc := hl c List.mem_cons_self
    have hname := (spells_closedParen hs).word (isDigit_of_isLetter hc).2 (classify_name hl) (apart_cons.2 (by decide))
      (fun h => absurd h (by simp [startsWith]; decide)) (by rintro rfl; exact absurd hc (by decide))
      (List.Pairwise.of_cons ho)
    have := hname.token (c := Byte.openParen) (r := []) (by decide) rfl
    simpa [parenthesized, enclosed, utf8_openParen, utf8_closedParen] using this

theorem writes_unrecognized {text : Text} (h : text = [] ∨ text.IsComment ∨ text ∈ strays) :
    Writes (text ++ (if isKeyword text then utf8 " " else []))
      (if text.isEmpty then [] else [Layout.word (kindOf text) text]) := by
  have hplain : ∀ {kind : Kind}, Plain kind text → Writes (text ++ (if isKeyword text then utf8 " " else []))
      (if text.isEmpty then [] else [Layout.word (kindOf text) text]) := by
    intro kind hp
    rw [hp.kindOf_eq]
    have hw := writes_word hp
    obtain ⟨c, r, rfl, -, -, hk, -⟩ := hp
    simpa [isKeyword_eq, hk] using hw
  simp only [strays, List.mem_append] at h
  rcases h with rfl | h | (((h | h) | h) | h) | h
  · exact writes_nil
  · exact hplain (plain_comment h)
  · exact hplain (plain_binaryOperator _ h)
  · exact hplain (plain_comparisonOperator _ h)
  · exact hplain (plain_assignmentOperator _ h)
  · exact hplain (plain_mark _ h)
  · simp only [keywords, List.mem_cons, List.not_mem_nil, or_false] at h
    rcases h with rfl | rfl | rfl <;> exact writes_nil.keyword (by decide)

theorem plain_of_mark {t : Text} {kind : Kind} (ht : t ∈ marks) (hk : kindOf t = kind) : Plain kind t :=
  hk ▸ plain_mark t ht

theorem apart_newline (u : Text) : Apart (Byte.lineFeed :: u) :=
  apart_cons.2 (by decide)

/-- What a line ends in: its terminator and a line feed. -/
theorem writes_lineEnd (s : Stmt) {t : Text} {ts : List Token} (h : Writes t ts) :
    Writes (terminator s ++ utf8 "\n" ++ t) (terminators s ++ ts) := by
  have h' : Writes (Byte.lineFeed :: t) ts := h.blank (by decide)
  unfold terminator terminators
  split
  · exact h'.word (plain_of_mark (by decide) rfl) fun u _ => apart_newline _
  · exact h'

theorem apart_lineEnd (s : Stmt) (t : Text) : Apart (terminator s ++ utf8 "\n" ++ t) := by
  unfold terminator
  split
  · exact apart_cons.2 (by decide)
  · exact apart_newline _

theorem apart_indentation (depth : Nat) {t : Text} (h : Apart t) : Apart (indentation depth ++ t) := by
  cases depth with
  | zero => exact h
  | succ n => exact apart_space _

end Layout

mutual

/-- The layout of an expression is written for its tokens. -/
theorem Expr.writes_layout (e : Expr) (hw : e.WellFormed) (depth : Nat) (least : Level) :
    Writes (e.layout depth least) (e.tokens least) := by
  cases e with
  | number x =>
    rw [Expr.layout, Expr.tokens]
    refine writes_enclosed ?_ _
    obtain ⟨m, rfl⟩ := hw
    exact writes_word (Token.plain_number m)
  | string s =>
    rw [Expr.layout, Expr.tokens]
    exact writes_enclosed (writes_word (Token.plain_string hw)) _
  | identifier name =>
    rw [Expr.layout, Expr.tokens]
    exact writes_enclosed (writes_name hw.1 hw.2) _
  | binary left operator right =>
    rw [Expr.layout, Expr.tokens]
    obtain ⟨ho, hl, hr⟩ := hw
    exact writes_enclosed ((left.writes_layout hl depth _).between (right.writes_layout hr depth _)
      (Token.plain_binaryOperator _ ho)) _
  | comparison left operator right =>
    rw [Expr.layout, Expr.tokens]
    obtain ⟨ho, hl, hr⟩ := hw
    exact writes_enclosed ((left.writes_layout hl depth _).between (right.writes_layout hr depth _)
      (Token.plain_comparisonOperator _ ho)) _
  | ternary condition yes no =>
    rw [Expr.layout, Expr.tokens]
    refine writes_enclosed ?_ _
    obtain ⟨hc, hy, hn⟩ := hw
    have hq : Token.Plain .question (utf8 "?") := plain_of_mark (by decide) rfl
    have hcolon : Token.Plain .colon (utf8 ":") := plain_of_mark (by decide) rfl
    have hwc := condition.writes_layout hc depth Level.type
    split
    · have := hwc.append ((writes_word hq).blank (c := Byte.space) (by decide)) fun u _ => apart_space _
      exact this
    · have hrest := (yes.writes_layout hy depth Level.type).between (no.writes_layout hn depth Level.type) hcolon
      have hall := hwc.between hrest hq
      have hquestion : utf8 " ? " = spaced (utf8 "?") := rfl
      have hmiddle : utf8 " : " = spaced (utf8 ":") := rfl
      rwa [hquestion, hmiddle, List.append_assoc (spaced _), List.append_assoc (spaced _), ← List.append_assoc]
  | typeOf operand =>
    rw [Expr.layout, Expr.tokens]
    exact writes_enclosed ((operand.writes_layout hw depth _).keyword (by decide)) _
  | assign target operator value =>
    rw [Expr.layout, Expr.tokens]
    obtain ⟨ho, ht, hv⟩ := hw
    exact writes_enclosed ((target.writes_layout ht.2 depth _).between (value.writes_layout hv.2 depth _)
      (Token.plain_assignmentOperator _ ho)) _
  | unrecognized text =>
    rw [Expr.layout, Expr.tokens]
    exact writes_enclosed (writes_unrecognized hw) _
  | missing => exact hw.elim

/-- The layout of a statement is written for its tokens. -/
theorem Stmt.writes_layout (s : Stmt) (hw : s.WellFormed) (depth : Nat) (least : Level) :
    Writes (s.layout depth least) (s.tokens least) := by
  cases s with
  | expr e => exact e.writes_layout hw depth least
  | output value => exact (value.writes_layout hw.2 depth _).keyword (by decide)
  | comment text => exact writes_word (Token.plain_comment hw)
  | ifThen condition body =>
    obtain ⟨hc, hb⟩ := hw
    have hclose : Writes (indentation depth ++ utf8 "\x7d") [word .closeBlock (utf8 "\x7d")] :=
      (writes_word (plain_of_mark (by decide) rfl)).indentation depth
    have hbody := (Stmt.writes_layoutAll body hb (depth + 1)).append hclose fun u hu => by
      rw [List.append_assoc]
      exact apart_indentation depth (Token.apart_cons.2 (by decide))
    have hbrace : Token.Plain .openBlock (utf8 "\x7b") := plain_of_mark (by decide) rfl
    have hopen := (hbody.blank (c := Byte.lineFeed) (by decide)).word hbrace fun u _ => apart_newline _
    have hcond := (condition.writes_layout hc depth Level.assignment).append
      (hopen.blank (c := Byte.space) (by decide)) fun u _ => apart_space _
    have hword : utf8 "if " = utf8 "if" ++ [Byte.space] := rfl
    have hopening : utf8 " \x7b\n" = Byte.space :: (utf8 "\x7b" ++ [Byte.lineFeed]) := rfl
    have hif : Writes (utf8 "if" ++ Byte.space :: _) (word .condition (utf8 "if") :: _) :=
      hcond.keyword (by decide)
    rw [Stmt.layout, Stmt.tokens, hopening, hword]
    simpa using hif
  | block _ => exact hw.elim

/-- The layout of statements is written for their tokens. -/
theorem Stmt.writes_layoutAll (b : List Stmt) (hw : Stmt.WellFormedAll b) (depth : Nat) :
    Writes (Stmt.layoutAll depth b) (Stmt.tokensAll b) := by
  cases b with
  | nil => exact writes_nil
  | cons s rest =>
    obtain ⟨hs, hr⟩ := hw
    have hend := writes_lineEnd s (Stmt.writes_layoutAll rest hr depth)
    have hline := (s.writes_layout hs depth Level.assignment).append hend fun u _ => by
      rw [List.append_assoc]
      exact apart_lineEnd s _
    have := hline.indentation depth
    simpa [Stmt.layoutAll, Stmt.tokensAll] using this

end

/-- The layout of a program spells its tokens. -/
theorem Program.spells_layout {p : Program} (hw : Stmt.WellFormedAll p) (ho : Token.StaysOpen (Stmt.tokensAll p)) :
    Token.Spells p.layout (Stmt.tokensAll p) := by
  have := Stmt.writes_layoutAll p hw 0 [] [] (by simp [Token.Apart]) (by simpa using ho) Token.spells_nil
  simpa [Program.layout] using this

/-- The layout of a program parses to what its tokens are read as. -/
theorem Program.parse_layout_iff {p q : Program} {file : Text} (hw : Stmt.WellFormedAll p)
    (ho : Token.StaysOpen (Stmt.tokensAll p)) :
    parse p.layout file = .ok q ↔ Grammar.Reads [] (.items false) (Stmt.tokensAll p) (.block q) [] := by
  obtain ⟨us, hs, hu⟩ := Program.spells_layout hw ho .start
  rw [Grammar.parse_eq_ok_iff hs]
  constructor
  · intro h
    obtain ⟨rest, hr, h'⟩ := h.transfer _ hu.symm
    obtain rfl : rest = [] := by simpa using hr
    exact h'
  · intro h
    obtain ⟨rest, hr, h'⟩ := h.transfer _ hu
    obtain rfl : rest = [] := by simpa using hr
    exact h'

end Jolt
