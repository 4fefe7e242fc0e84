import Jolt.Proofs.Grammar.Lexemes
import Jolt.Proofs.Token.Genuine

/-!
# What a tree keeps of its source

The yield of a tree is what the tree says, from left to right, of the tokens that it was read from. The tokens of a
source are the yield of its program with fillers put in between: separators, parentheses, and the `if` of a condition
without a body (`parse_yield`). So the tree loses nothing else, and nothing is doubled or moved.

The one place where the tree does not say which token stood there is between the two values of a choice.
-/

namespace Jolt

open Token (Kind)
open Grammar

/-! ## Yields -/

/-- What a tree says of one token. -/
inductive Piece where
  | lexeme (kind : Kind) (text : Text)
  /-- A number, however it is written. -/
  | number (x : Number)
  /-- A token that stands for itself where an operand is expected. -/
  | stray (text : Text)
  /-- The token between the two values of a choice. -/
  | between

/-- Whether a token is what a piece says. -/
def Piece.Matches : Piece → Token → Prop
  | .lexeme kind text, t => t.kind = kind ∧ t.text = text
  | .number x, t => t.kind = .number ∧ Number.ofLiteral? t.text = some x
  | .stray text, t => isStray t.kind = true ∧ t.text = text
  | .between, _ => True

mutual

/-- The yield of an expression. -/
def Expr.yield : Expr → List Piece
  | .number x => [.number x]
  | .string value => [.lexeme .string (utf8 "\"" ++ value ++ utf8 "\"")]
  | .identifier name => [.lexeme .identifier name]
  | .binary left operator right => left.yield ++ .lexeme .binaryOperator operator :: right.yield
  | .comparison left operator right => left.yield ++ .lexeme .comparison operator :: right.yield
  | .ternary condition yes no =>
    condition.yield ++ .lexeme .question (utf8 "?") :: (yes.yield ++ .between :: no.yield)
  | .typeOf operand => .lexeme .type (utf8 "type") :: operand.yield
  | .assign target operator value => target.yield ++ .lexeme .equals operator :: value.yield
  | .unrecognized text => if text.isEmpty then [] else [.stray text]
  | .missing => []

/-- The yield of a statement. -/
def Stmt.yield : Stmt → List Piece
  | .expr e => e.yield
  | .output value => .lexeme .output (utf8 "out") :: value.yield
  | .comment text => [.lexeme .comment text]
  | .ifThen condition body =>
    .lexeme .condition (utf8 "if") :: (condition.yield ++ .lexeme .openBlock (utf8 "\x7b") ::
      (Stmt.yieldAll body ++ [.lexeme .closeBlock (utf8 "\x7d")]))
  | .block body => Stmt.yieldAll body

/-- The yield of statements. -/
def Stmt.yieldAll : List Stmt → List Piece
  | [] => []
  | s :: rest => s.yield ++ Stmt.yieldAll rest

end

/-- The kinds of tokens that a tree may leave out. -/
def isFiller : Kind → Bool
  | .endOfLine | .openParen | .closedParen | .condition => true
  | _ => false

/-- The tokens are a yield with fillers put in. Between the values of a choice there is any one token, or none where the
tokens are at their end. -/
inductive Covers : List Piece → List Token → Prop
  | nil : Covers [] []
  | filler {t : Token} {ys : List Piece} {ts : List Token} : isFiller t.kind = true → Covers ys ts → Covers ys (t :: ts)
  | piece {t : Token} {y : Piece} {ys : List Piece} {ts : List Token} : y.Matches t → Covers ys ts →
      Covers (y :: ys) (t :: ts)
  | cut {ys : List Piece} : Covers ys [] → Covers (.between :: ys) []

/-! ## Tokens of a source -/

/-- The tokens have the texts of their kinds, and none is empty. -/
def Sourced (ts : List Token) : Prop :=
  ∀ t ∈ ts, t.Genuine ∧ t.text ≠ []

theorem Token.Scans.sourced {p : Position} {t : Text} {ts : List Token} (h : Scans p t ts) : Sourced ts := by
  intro u hu
  exact ⟨h.genuine u hu, h.text_ne_nil u hu⟩

theorem Sourced.of_suffix {ts rest : List Token} (h : Sourced ts) (hr : rest <:+ ts) : Sourced rest := by
  intro t ht
  exact h t (hr.subset ht)

theorem Sourced.head {t : Token} {ts : List Token} (h : Sourced (t :: ts)) : t.Genuine ∧ t.text ≠ [] :=
  h t List.mem_cons_self

theorem Sourced.tail {t : Token} {ts : List Token} (h : Sourced (t :: ts)) : Sourced ts :=
  h.of_suffix (List.suffix_cons t ts)

/-- The one text that tokens of a kind have, for the kinds of words and marks that trees are built with. -/
def Token.Kind.spelling? : Kind → Option Text
  | .question => some (utf8 "?")
  | .openBlock => some (utf8 "\x7b")
  | .closeBlock => some (utf8 "\x7d")
  | .output => some (utf8 "out")
  | .type => some (utf8 "type")
  | .condition => some (utf8 "if")
  | _ => none

theorem Token.Genuine.spelling {t : Token} {kind : Kind} {text : Text} (h : t.Genuine) (hk : t.kind = kind)
    (hs : kind.spelling? = some text) : (Piece.lexeme kind text).Matches t := by
  have hone : ∀ s ∈ strays, (kindOf s).spelling?.all (· = s) = true := by decide
  have hmem : t.text ∈ strays ∧ kindOf t.text = kind := by
    have hallows := h.allows hk
    unfold Kind.spelling? at hs
    split at hs
    case h_7 => cases hs
    all_goals exact hallows
  have htext := hone t.text hmem.1
  rw [hmem.2, hs] at htext
  exact ⟨hk, (of_decide_eq_true htext).symm⟩

/-! ## Readings -/

namespace Grammar

/-- What a form takes after its tree: a body takes the brace that closes it. -/
def Form.closing : Form → List Piece
  | .items true => [.lexeme .closeBlock (utf8 "\x7d")]
  | _ => []

@[simp]
theorem Chain.closing_operand (c : Chain) : c.operand.closing = [] := by
  cases c <;> rfl

theorem Chain.yield_build {c : Chain} {t : Token} {l r s : Stmt} (ho : c.isOperator t = true)
    (h : c.build l t.text r = some s) : ∃ y : Piece, y.Matches t ∧ s.yield = l.yield ++ y :: r.yield := by
  rcases Chain.build_cases h with ⟨a, b, hc, rfl, rfl, rfl⟩ | ⟨a, b, rfl, rfl, rfl, rfl⟩ | ⟨rfl, rfl⟩
  · have hk : t.kind = .binaryOperator := by
      rcases hc with rfl | rfl <;> simp [Chain.isOperator, isProduct, isSum] at ho <;> exact ho.1
    exact ⟨.lexeme .binaryOperator t.text, ⟨hk, rfl⟩, rfl⟩
  · exact ⟨.lexeme .comparison t.text, ⟨of_decide_eq_true ho, rfl⟩, rfl⟩
  · exact ⟨.lexeme .equals t.text, ⟨of_decide_eq_true ho, rfl⟩, rfl⟩

theorem covers_skipEndOfLine {ys : List Piece} {ts : List Token} (h : Covers ys (skipEndOfLine ts)) : Covers ys ts := by
  cases ts with
  | nil => exact h
  | cons t ts =>
    by_cases ht : t.kind = .endOfLine
    · apply Covers.filler
      · rw [ht]; rfl
      · simpa [skipEndOfLine, accept, ht] using h
    · simpa [skipEndOfLine, accept, ht] using h

/-- The token between the values of a choice is any, and there is one unless the tokens are at their end. -/
theorem covers_between {ys : List Piece} {ts : List Token} (h : Covers ys (ts.drop 1)) : Covers (.between :: ys) ts := by
  cases ts with
  | nil => exact .cut h
  | cons t ts => exact .piece trivial h

/-- The yield of what is read, put before what covers the tokens that are left, covers the tokens that were there. -/
theorem Reads.covers {f : Form} {ts rest : List Token} {s : Stmt} (h : Reads [] f ts s rest) (hts : Sourced ts)
    {ys : List Piece} (hy : Covers ys rest) : Covers (s.yield ++ (f.closing ++ ys)) ts := by
  induction h generalizing ys with
  | identifier hk => exact .piece ⟨hk, rfl⟩ hy
  | number hk hx => exact .piece ⟨hk, hx⟩ hy
  | string hk hx => exact .piece ⟨hk, (hts.head.1.allows hk _ hx).1⟩ hy
  | @group t u ts rest e hk h hu ih =>
    have hclosed : Covers ys (u :: rest) := .filler (by rw [hu]; rfl) hy
    exact .filler (by rw [hk]; rfl) (ih hts.tail hclosed)
  | @stray t ts hk =>
    have hyield : (Stmt.expr (.unrecognized t.text)).yield = [.stray t.text] := by
      simp [Stmt.yield, Expr.yield, hts.head.2]
    rw [hyield]
    exact .piece ⟨hk, rfl⟩ hy
  | atEnd => exact hy
  | first _ ih =>
    have hoperand := ih hts hy
    rwa [Chain.closing_operand] at hoperand
  | @join c t ts mid rest l r s hl ho hr hb ihl ihr =>
    obtain ⟨y, hm, hs⟩ := Chain.yield_build ho hb
    have hmid := hts.of_suffix hl.suffix
    have hright : Covers (r.yield ++ ys) mid := by simpa using ihr hmid.tail hy
    have hleft := ihl hts (.piece hm hright)
    simpa [hs, Form.closing] using hleft
  | done _ _ ih | untyped _ _ ih | decided _ _ ih | unmarked _ _ ih | silent _ _ ih | plain _ _ ih => exact ih hts hy
  | typeOf hk _ ih => exact .piece (hts.head.1.spelling hk rfl) (ih hts.tail hy)
  | @choice t ts ts₁ ts₂ rest c y n hc hq hr hn ihc ihy ihn =>
    have h₁ := hts.of_suffix hc.suffix
    have h₂ := h₁.tail.of_suffix hr.suffix
    have hno : Covers (n.yield ++ ys) (ts₂.drop 1) := ihn (h₂.of_suffix (List.drop_suffix 1 ts₂)) hy
    have hyes := ihy h₁.tail (covers_between hno)
    have hquestion := h₁.head.1.spelling hq rfl
    have hall := ihc hts (.piece hquestion hyes)
    simpa [Stmt.yield, Expr.yield, Form.closing] using hall
  | @ifThen t u ts ts₁ rest c b hk hc hu hb ihc ihb =>
    have h₁ := hts.tail.of_suffix hc.suffix
    have hbody := ihb h₁.tail hy
    have hopen := h₁.head.1.spelling hu rfl
    have hcond := ihc hts.tail (.piece hopen hbody)
    have hif := hts.head.1.spelling hk rfl
    have hall := Covers.piece hif hcond
    simpa [Stmt.yield, Form.closing] using hall
  | marked hk _ _ ih => exact .filler (by rw [hk]; rfl) (ih hts.tail hy)
  | output hk _ ih => exact .piece (hts.head.1.spelling hk rfl) (ih hts.tail hy)
  | comment hk => exact .piece ⟨hk, rfl⟩ hy
  | close hk => exact .piece (hts.head.1.spelling hk rfl) hy
  | finish => exact hy
  | skip hk _ ih => exact .filler (by rw [hk]; rfl) (ih hts.tail hy)
  | @item b t ts ts₁ rest s more _ _ hs _ ihs ihm =>
    have h₁ := hts.of_suffix hs.suffix
    have hmore := ihm (h₁.of_suffix (skipEndOfLine_suffix ts₁)) hy
    have hall := ihs hts (covers_skipEndOfLine hmore)
    simpa [Stmt.yield, Stmt.yieldAll, Form.closing] using hall

end Grammar

/-- The tokens of a source, without the end of the input, are the yield of its program with fillers put in. -/
theorem parse_yield {source file : Text} {p : Program} (h : parse source file = .ok p) :
    Covers (Stmt.yieldAll p) ((Token.scan source).filter (!·.isEnd)) := by
  obtain ⟨ts, hs⟩ := Token.exists_scans .start source
  have htokens : (Token.scan source).filter (!·.isEnd) = ts := by
    have hscan : Token.scan source = ts ++ [⟨[], .endOfInput, Position.start.advance source⟩] := hs.scanFrom_eq
    have hkept : ts.filter (!·.isEnd) = ts := by
      rw [List.filter_eq_self]
      intro t ht
      simpa [Token.isEnd] using hs.kind_ne_end t ht
    rw [hscan, List.filter_append, hkept]
    simp [Token.isEnd]
  rw [htokens]
  have hreads := (parse_eq_ok_iff hs).1 h
  have hcovers := hreads.covers hs.sourced .nil
  simpa [Stmt.yield, Form.closing] using hcovers

/-- An `if` and parentheses that are left out, a choice over an unknown byte, and an operator in the place of a value. -/
theorem parse_yield_choice :
    parse (utf8 "if a ? (\"b\") @ c; if x \x7b y = =; \x7d") [] = .ok
        [.expr (.ternary (.identifier (utf8 "a")) (.string (utf8 "b")) (.identifier (utf8 "c"))),
          .ifThen (.identifier (utf8 "x"))
            [.expr (.assign (.expr (.identifier (utf8 "y"))) (utf8 "=") (.expr (.unrecognized (utf8 "="))))]] ∧
      Covers
        [.lexeme .identifier (utf8 "a"), .lexeme .question (utf8 "?"), .lexeme .string (utf8 "\"b\""), .between,
          .lexeme .identifier (utf8 "c"), .lexeme .condition (utf8 "if"), .lexeme .identifier (utf8 "x"),
          .lexeme .openBlock (utf8 "\x7b"), .lexeme .identifier (utf8 "y"), .lexeme .equals (utf8 "="),
          .stray (utf8 "="), .lexeme .closeBlock (utf8 "\x7d")]
        ((Token.scan (utf8 "if a ? (\"b\") @ c; if x \x7b y = =; \x7d")).filter (!·.isEnd)) := by
  have h : parse (utf8 "if a ? (\"b\") @ c; if x \x7b y = =; \x7d") [] = .ok
      [.expr (.ternary (.identifier (utf8 "a")) (.string (utf8 "b")) (.identifier (utf8 "c"))),
        .ifThen (.identifier (utf8 "x"))
          [.expr (.assign (.expr (.identifier (utf8 "y"))) (utf8 "=") (.expr (.unrecognized (utf8 "="))))]] := by
    decide +kernel
  exact ⟨h, parse_yield h⟩

end Jolt
