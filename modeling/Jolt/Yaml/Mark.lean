import Jolt.Text.Utf8

/-!
# Places and problems in YAML

A `Mark` is a place in a stream of characters, with all counts from zero. A `Problem` says why a stream cannot be read; it
names a line unless that is the first one of the stream.
-/

namespace Jolt.Yaml

/-- A place in a stream. -/
structure Mark where
  index : Nat
  line : Nat
  column : Nat
deriving DecidableEq

/-- The start of a stream. -/
def Mark.start : Mark :=
  ⟨0, 0, 0⟩

/-- The place after one character of the same line. -/
def Mark.next (m : Mark) : Mark :=
  ⟨m.index + 1, m.line, m.column + 1⟩

/-- The place after `n` characters of the same line. -/
def Mark.advance (m : Mark) (n : Nat) : Mark :=
  ⟨m.index + n, m.line, m.column + n⟩

/-- The place after a line break of `n` characters. -/
def Mark.nextLine (m : Mark) (n : Nat) : Mark :=
  ⟨m.index + n, m.line + 1, 0⟩

/-- Why a stream cannot be read. -/
structure Problem where
  line : Option Nat
  message : Text
deriving DecidableEq

namespace Problem

/-- The first of two lines that is not zero. -/
def firstLine? (context place : Mark) : Option Nat :=
  if context.line ≠ 0 then some context.line else if place.line ≠ 0 then some place.line else none

/-- A problem with characters. Its line is counted from one. -/
def ofCharacters (context place : Mark) (message : String) : Problem :=
  ⟨(firstLine? context place).map (· + 1), utf8 message⟩

/-- A problem with tokens. Its line is counted from zero. -/
def ofTokens (context place : Mark) (message : String) : Problem :=
  ⟨firstLine? context place, utf8 message⟩

/-- A problem that has no place. -/
def general (message : Text) : Problem :=
  ⟨none, message⟩

/-- The text of a problem. -/
def text (p : Problem) : Text :=
  utf8 "yaml: " ++ (match p.line with
    | some n => utf8 "line " ++ Text.ofNat n ++ utf8 ": "
    | none => []) ++ p.message

end Problem

/-! ## Characters -/

/-- A space or a tab. -/
def isBlank (c : Char) : Bool :=
  c = ' ' || c = '\t'

/-- A character that ends a line. -/
def isBreak (c : Char) : Bool :=
  c = '\n' || c = '\r' || c.val == 0x85 || c.val == 0x2028 || c.val == 0x2029

/-- Whether a word ends here: at a blank, a line break or the end of the stream. -/
def atWordEnd : List Char → Bool
  | [] => true
  | c :: _ => isBlank c || isBreak c

/-- The line break that a character stands for. -/
def breakChar (c : Char) : Char :=
  if c.val == 0x2028 || c.val == 0x2029 then c else '\n'

/-- Whether three hyphens or three dots stand here as a word of their own. -/
def atDocumentMark (cs : List Char) : Bool :=
  (cs.take 3 = ['-', '-', '-'] || cs.take 3 = ['.', '.', '.']) && atWordEnd (cs.drop 3)

/-- The bytes of characters. -/
def textOf (cs : List Char) : Text :=
  cs.flatMap String.utf8EncodeChar

end Jolt.Yaml
