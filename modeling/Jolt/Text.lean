/-!
# Text

Sources, values and everything that is printed are sequences of bytes. Nothing requires them to be valid UTF-8.

- `utf8` gives the bytes of a literal, `Byte` names single bytes;
- the byte classes of the language: `Text.isBlank`, `Text.isDigit`, `Text.isLetter`;
- `Text.lines` and `Text.unlines` cut at line feeds and join again;
- `Text.ofNat` and `Text.ofInt` write integers in decimal, `Text.hex` in base sixteen.
-/

namespace Jolt

/-- A sequence of bytes. -/
abbrev Text := List UInt8

/-- The UTF-8 bytes of a string. -/
def utf8 (s : String) : Text :=
  s.toList.flatMap String.utf8EncodeChar

namespace Byte

@[match_pattern] abbrev tab : UInt8 := 9
@[match_pattern] abbrev lineFeed : UInt8 := 10
@[match_pattern] abbrev carriageReturn : UInt8 := 13
@[match_pattern] abbrev space : UInt8 := 32
@[match_pattern] abbrev quote : UInt8 := 34
@[match_pattern] abbrev openParen : UInt8 := 40
@[match_pattern] abbrev closedParen : UInt8 := 41
@[match_pattern] abbrev star : UInt8 := 42
@[match_pattern] abbrev plus : UInt8 := 43
@[match_pattern] abbrev comma : UInt8 := 44
@[match_pattern] abbrev minus : UInt8 := 45
@[match_pattern] abbrev dot : UInt8 := 46
@[match_pattern] abbrev slash : UInt8 := 47
@[match_pattern] abbrev zero : UInt8 := 48
@[match_pattern] abbrev colon : UInt8 := 58
@[match_pattern] abbrev semicolon : UInt8 := 59
@[match_pattern] abbrev less : UInt8 := 60
@[match_pattern] abbrev equals : UInt8 := 61
@[match_pattern] abbrev greater : UInt8 := 62
@[match_pattern] abbrev question : UInt8 := 63
@[match_pattern] abbrev backslash : UInt8 := 92
@[match_pattern] abbrev underscore : UInt8 := 95
@[match_pattern] abbrev openBrace : UInt8 := 123
@[match_pattern] abbrev closeBrace : UInt8 := 125

end Byte

namespace Text

/-- Space, tab, line feed and carriage return separate tokens. -/
def isBlank (b : UInt8) : Bool :=
  b == Byte.space || b == Byte.tab || b == Byte.lineFeed || b == Byte.carriageReturn

/-- A decimal digit. -/
def isDigit (b : UInt8) : Bool :=
  48 ≤ b && b ≤ 57

/-- A letter of an identifier: ASCII letters and the underscore. -/
def isLetter (b : UInt8) : Bool :=
  (97 ≤ b && b ≤ 122) || (65 ≤ b && b ≤ 90) || b == Byte.underscore

/-- An ASCII capital becomes small, every other byte stays. -/
def lower (b : UInt8) : UInt8 :=
  if 65 ≤ b && b ≤ 90 then b + 32 else b

/-- The digit byte of a number below ten. -/
def digitByte (d : Nat) : UInt8 :=
  UInt8.ofNat (48 + d)

/-- A number in decimal, without leading zeros. -/
def ofNat (n : Nat) : Text :=
  if n < 10 then [digitByte n] else ofNat (n / 10) ++ [digitByte (n % 10)]

/-- An integer in decimal, with a minus sign where it is negative. -/
def ofInt : Int → Text
  | .ofNat n => ofNat n
  | .negSucc n => Byte.minus :: ofNat (n + 1)

/-- The last digit of a number in base sixteen. -/
def hexDigit (n : Nat) : UInt8 :=
  if n % 16 < 10 then UInt8.ofNat (48 + n % 16) else UInt8.ofNat (87 + n % 16)

/-- A number in base sixteen with a fixed number of digits. -/
def hex : Nat → Nat → Text
  | 0, _ => []
  | width + 1, n => hex width (n / 16) ++ [hexDigit n]

/-- `n` spaces. -/
def spaces (n : Nat) : Text :=
  List.replicate n Byte.space

/-- Pads a text of the given width with spaces on the right. -/
def padRight (width used : Nat) (t : Text) : Text :=
  t ++ spaces (width - used)

/-- Pads with spaces on the left, up to a width in bytes. -/
def padLeft (width : Nat) (t : Text) : Text :=
  spaces (width - t.length) ++ t

/-- Cuts at every occurrence of a byte. There is always one piece more than there are cuts. -/
def splitOn (b : UInt8) : Text → List Text
  | [] => [[]]
  | c :: r =>
    if c = b then [] :: splitOn b r
    else match splitOn b r with
      | [] => [[c]]
      | p :: ps => (c :: p) :: ps

/-- The pieces between line feeds. -/
def lines (t : Text) : List Text :=
  splitOn Byte.lineFeed t

/-- Pieces with a separator between them. -/
def joinWith (separator : Text) (pieces : List Text) : Text :=
  List.intercalate separator pieces

/-- Each piece followed by a line feed. -/
def unlines (pieces : List Text) : Text :=
  pieces.flatMap (· ++ [Byte.lineFeed])

/-- Whether a text ends in another. -/
def endsIn (t ending : Text) : Bool :=
  ending.isSuffixOf t

/-- Whether a text occurs in another without a gap. -/
def occursIn (part : Text) : Text → Bool
  | [] => part.isEmpty
  | c :: r => part.isPrefixOf (c :: r) || occursIn part r

end Text

end Jolt
