import Jolt.Text.Printable
import Jolt.Text.Utf8

/-!
# Quoted text

A text between double quotes on one line. What does not print is written as an escape: a letter after a backslash for
common controls, else the code in hexadecimal with a width that its mark says.
-/

namespace Jolt.Text

/-- The letter that stands for a control after a backslash. -/
def controlLetter? (c : Char) : Option UInt8 :=
  match c.toNat with
  | 7 => some 97
  | 8 => some 98
  | 12 => some 102
  | 10 => some 110
  | 13 => some 114
  | 9 => some 116
  | 11 => some 118
  | _ => none

/-- A character as it stands between quotes. -/
def quotedChar (c : Char) : Text :=
  if c = '"' || c = '\\' then Byte.backslash :: String.utf8EncodeChar c
  else if isPrintable c then String.utf8EncodeChar c
  else match controlLetter? c with
    | some letter => [Byte.backslash, letter]
    | none =>
      if c.toNat < 0x80 then utf8 "\\x" ++ hex 2 c.toNat
      else if c.toNat < 0x10000 then utf8 "\\u" ++ hex 4 c.toNat
      else utf8 "\\U" ++ hex 8 c.toNat

/-- A symbol as it stands between quotes. -/
def Symbol.quoted : Symbol → Text
  | char c => quotedChar c
  | stray b => utf8 "\\x" ++ hex 2 b.toNat

/-- A text between quotes. -/
def quoted (t : Text) : Text :=
  [Byte.quote] ++ (symbols t).flatMap Symbol.quoted ++ [Byte.quote]

end Jolt.Text
