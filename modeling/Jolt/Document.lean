import Jolt.Text.Utf8

/-!
# JSON documents

Documents are written compactly or indented. Strings may be read inside a web page: besides what JSON asks for,
the characters `<`, `>`, `&` and the two Unicode line ends are escaped. A byte that belongs to no character becomes the
replacement character.
-/

namespace Jolt

/-- A JSON document; the fields of an object keep their order. -/
inductive Document where
  | string (t : Text)
  | int (n : Int)
  | bool (b : Bool)
  | array (items : List Document)
  | object (fields : List (Text × Document))

namespace Document

/-- The characters with an escape of their own. -/
def shortEscape? (c : Char) : Option Text :=
  match c with
  | '\x08' => some (utf8 "\\b")
  | '\t' => some (utf8 "\\t")
  | '\n' => some (utf8 "\\n")
  | '\x0c' => some (utf8 "\\f")
  | '\r' => some (utf8 "\\r")
  | '"' => some (utf8 "\\\"")
  | '\\' => some (utf8 "\\\\")
  | _ => none

/-- The characters that are written by their code. -/
def isCoded (c : Char) : Bool :=
  c.val < 0x20 || c = '<' || c = '>' || c = '&' || c.val == 0x2028 || c.val == 0x2029

/-- A symbol inside a string. -/
def escape : Text.Symbol → Text
  | .stray _ => utf8 "�"
  | .char c =>
    match shortEscape? c with
    | some t => t
    | none => if isCoded c then utf8 "\\u" ++ Text.hex 4 c.toNat else String.utf8EncodeChar c

/-- A string in quotes. -/
def quoted (t : Text) : Text :=
  utf8 "\"" ++ t.symbols.flatMap escape ++ utf8 "\""

/-- A truth value. -/
def boolText (b : Bool) : Text :=
  if b then utf8 "true" else utf8 "false"

mutual

/-- A document without any white space. -/
def compact : Document → Text
  | string t => quoted t
  | int n => Text.ofInt n
  | bool b => boolText b
  | array items => utf8 "[" ++ Text.joinWith (utf8 ",") (compactItems items) ++ utf8 "]"
  | object fields => utf8 "\x7b" ++ Text.joinWith (utf8 ",") (compactFields fields) ++ utf8 "\x7d"

def compactItems : List Document → List Text
  | [] => []
  | j :: rest => compact j :: compactItems rest

def compactFields : List (Text × Document) → List Text
  | [] => []
  | (name, j) :: rest => (quoted name ++ utf8 ":" ++ compact j) :: compactFields rest

end

/-- A bracketed list with one entry a line, two spaces deeper than the brackets. -/
def bracketed (depth : Nat) (opening closing : Text) (entries : List Text) : Text :=
  if entries.isEmpty then opening ++ closing
  else
    let margin := utf8 "\n" ++ Text.spaces (2 * depth)
    opening ++ margin ++ utf8 "  " ++ Text.joinWith (utf8 "," ++ margin ++ utf8 "  ") entries ++ margin ++ closing

mutual

/-- A document with one entry a line, inside `depth` brackets. -/
def indented (depth : Nat) : Document → Text
  | string t => quoted t
  | int n => Text.ofInt n
  | bool b => boolText b
  | array items => bracketed depth (utf8 "[") (utf8 "]") (indentedItems (depth + 1) items)
  | object fields => bracketed depth (utf8 "\x7b") (utf8 "\x7d") (indentedFields (depth + 1) fields)

def indentedItems (depth : Nat) : List Document → List Text
  | [] => []
  | j :: rest => indented depth j :: indentedItems depth rest

def indentedFields (depth : Nat) : List (Text × Document) → List Text
  | [] => []
  | (name, j) :: rest => (quoted name ++ utf8 ": " ++ indented depth j) :: indentedFields depth rest

end

end Document

end Jolt
