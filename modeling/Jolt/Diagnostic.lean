import Jolt.Token

/-!
# Diagnostics

A `Fault` says why tokens are no program, and at which token. A `Diagnostic` is what is shown of it: the message, the
place, and the source line with a caret below the column.
-/

namespace Jolt

/-- Why tokens are no program. -/
inductive Fault.Cause where
  | unexpectedToken
  | invalidNumber
  | unterminatedString
  | expectedExpression
  | unclosedParen
  | unclosedBody
deriving DecidableEq

/-- A cause and the token where it was found. -/
structure Fault where
  cause : Fault.Cause
  token : Token
deriving DecidableEq

namespace Fault

/-- How a token is named in a message. -/
def describe (t : Token) : Text :=
  if t.isEnd then utf8 "end of input" else t.text

/-- The message of a fault. -/
def message (f : Fault) : Text :=
  match f.cause with
  | .unexpectedToken => utf8 "Unexpected token '" ++ f.token.text ++ utf8 "'"
  | .invalidNumber => utf8 "Invalid number '" ++ f.token.text ++ utf8 "'"
  | .unterminatedString => utf8 "Unterminated string literal"
  | .expectedExpression => utf8 "Expect expression (got '" ++ describe f.token ++ utf8 "')"
  | .unclosedParen => utf8 "Expect ')' after expression (got '" ++ describe f.token ++ utf8 "')"
  | .unclosedBody => utf8 "Expect '\x7d' after if body"

end Fault

/-- A message about a place in a source. -/
structure Diagnostic where
  /-- The class of the message, written before it. -/
  category : Text
  message : Text
  file : Text
  line : Int
  column : Int
  /-- The source line, empty where there is none to show. -/
  source : Text
deriving DecidableEq

namespace Diagnostic

/-- The class of everything that is wrong with a source. -/
def syntaxError : Text :=
  utf8 "SyntaxError"

/-- Whether a diagnostic is about the form of a source. -/
def isSyntax (d : Diagnostic) : Bool :=
  d.category == syntaxError

/-- What stands before the echoed source line. -/
def gutter (d : Diagnostic) : Text :=
  utf8 "  " ++ Text.ofInt d.line ++ utf8 " | "

/-- The place, with the file where it is known. -/
def place (d : Diagnostic) : Text :=
  if d.file.isEmpty then
    utf8 "\n  at line " ++ Text.ofInt d.line ++ utf8 ", column " ++ Text.ofInt d.column
  else
    utf8 "\n  at " ++ d.file ++ utf8 ":" ++ Text.ofInt d.line ++ utf8 ":" ++ Text.ofInt d.column

/-- The source line and below it the caret. -/
def excerpt (d : Diagnostic) : Text :=
  utf8 "\n\n" ++ d.gutter ++ d.source ++ utf8 "\n"
    ++ Text.spaces (d.gutter.length + (d.column - 1).toNat) ++ utf8 "^"

/-- The whole text. A diagnostic without a place is its message alone. -/
def render (d : Diagnostic) : Text :=
  d.category ++ utf8 ": " ++ d.message
    ++ (if 0 < d.line then d.place ++ (if d.source.isEmpty then [] else d.excerpt) else [])

end Diagnostic

/-- A fault as a diagnostic for a file with these source lines. -/
def Fault.diagnose (file : Text) (lines : List Text) (f : Fault) : Diagnostic where
  category := Diagnostic.syntaxError
  message := f.message
  file := file
  line := f.token.position.line
  column := f.token.position.column
  source := if 0 < f.token.position.line then lines.getD (f.token.position.line - 1).toNat [] else []

end Jolt
