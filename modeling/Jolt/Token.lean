import Jolt.Text

/-!
# Tokens

A token is a piece of source text with its kind and the place where it starts.
-/

namespace Jolt

/-- A place in a source. Lines and columns count from one, columns in bytes. A token that was not read from a source
may stand anywhere, also nowhere: at line zero. -/
structure Position where
  offset : Nat
  line : Int
  column : Int
deriving DecidableEq, Inhabited

namespace Position

/-- The start of a source. -/
def start : Position :=
  ⟨0, 1, 1⟩

/-- No place in a source. -/
def nowhere : Position :=
  ⟨0, 0, 0⟩

/-- The place after one more byte. -/
def after (p : Position) (b : UInt8) : Position :=
  if b = Byte.lineFeed then ⟨p.offset + 1, p.line + 1, 1⟩ else ⟨p.offset + 1, p.line, p.column + 1⟩

/-- The place after a text. -/
def advance (p : Position) (t : Text) : Position :=
  t.foldl after p

end Position

namespace Token

/-- The kinds of tokens. `other` is a kind that no source produces, known only by its number. -/
inductive Kind where
  | unknown
  | endOfLine
  | endOfInput
  | comment
  | number
  | string
  | identifier
  | binaryOperator
  | equals
  | openParen
  | closedParen
  | openBlock
  | closeBlock
  | question
  | colon
  | comparison
  | output
  | type
  | condition
  | other (code : Int)
deriving DecidableEq, Inhabited

namespace Kind

/-- The kinds in the order of their numbers. -/
def numbered : List Kind :=
  [unknown, endOfLine, endOfInput, comment, number, string, identifier, binaryOperator, equals, openParen, closedParen,
    openBlock, closeBlock, question, colon, comparison, output, type, condition]

/-- The kind with a number. -/
def ofCode (code : Int) : Kind :=
  if code < 0 then other code else numbered.getD code.toNat (other code)

/-- The name of a kind. -/
def name : Kind → Text
  | unknown => utf8 "UNKNOWN"
  | endOfLine => utf8 "EOL"
  | endOfInput => utf8 "EOF"
  | comment => utf8 "COMMENT"
  | number => utf8 "NUMBER"
  | string => utf8 "STRING"
  | identifier => utf8 "IDENT"
  | binaryOperator => utf8 "BINOP"
  | equals => utf8 "EQUALS"
  | openParen => utf8 "("
  | closedParen => utf8 ")"
  | openBlock => utf8 "\x7b"
  | closeBlock => utf8 "\x7d"
  | question => utf8 "?"
  | colon => utf8 ":"
  | comparison => utf8 "COMPARISON"
  | output => utf8 "OUT"
  | type => utf8 "TYPE"
  | condition => utf8 "IF"
  | other code => utf8 "Kind(" ++ Text.ofInt code ++ utf8 ")"

end Kind

end Token

/-- A piece of source text. -/
structure Token where
  text : Text
  kind : Token.Kind
  position : Position
deriving DecidableEq, Inhabited

namespace Token

/-- The token as it is listed: kind and text. -/
def listing (t : Token) : Text :=
  utf8 "[" ++ t.kind.name ++ utf8 "] '" ++ t.text ++ utf8 "'"

/-- Whether a token marks the end of the input. -/
def isEnd (t : Token) : Bool :=
  t.kind = .endOfInput

end Token

end Jolt
