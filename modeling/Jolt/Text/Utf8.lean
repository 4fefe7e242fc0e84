import Jolt.Text

/-!
# UTF-8

A text is read as UTF-8 from the left. A `Symbol` is a character or a single byte with which no character starts;
`Text.symbols` cuts a text into symbols and `Symbol.bytes` gives their bytes back.
-/

namespace Jolt.Text

/-- A character, or a byte that starts none. -/
inductive Symbol where
  | char (c : Char)
  | stray (b : UInt8)
deriving DecidableEq

namespace Symbol

/-- The bytes of a symbol. -/
def bytes : Symbol → Text
  | char c => String.utf8EncodeChar c
  | stray b => [b]

/-- The character of a symbol that is one. -/
def char? : Symbol → Option Char
  | char c => some c
  | stray _ => none

end Symbol

/-- The low six bits of a continuation byte. -/
def continuation? (b : UInt8) : Option Nat :=
  if 128 ≤ b && b < 192 then some (b.toNat - 128) else none

/-- The character with a code point, if there is one and it is at least `least`: longer forms of a smaller one are no
characters. -/
def charFrom? (least code : Nat) : Option Char :=
  if least ≤ code && (code < 0xd800 || (0xdfff < code && code < 0x110000)) then some (Char.ofNat code) else none

/-- The character a text starts with. -/
def firstChar? : Text → Option Char
  | [] => none
  | a :: r =>
    if a < 128 then some (Char.ofNat a.toNat)
    else if 192 ≤ a && a < 224 then
      match r with
      | b :: _ => do charFrom? 0x80 ((a.toNat - 192) * 64 + (← continuation? b))
      | _ => none
    else if 224 ≤ a && a < 240 then
      match r with
      | b :: c :: _ => do
        charFrom? 0x800 (((a.toNat - 224) * 64 + (← continuation? b)) * 64 + (← continuation? c))
      | _ => none
    else if 240 ≤ a && a < 248 then
      match r with
      | b :: c :: d :: _ => do
        charFrom? 0x10000
          ((((a.toNat - 240) * 64 + (← continuation? b)) * 64 + (← continuation? c)) * 64 + (← continuation? d))
      | _ => none
    else none

/-- The symbols of a text. -/
def symbols : Text → List Symbol
  | [] => []
  | a :: r =>
    match firstChar? (a :: r) with
    | some c => .char c :: symbols (r.drop (c.utf8Size - 1))
    | none => .stray a :: symbols r
termination_by t => t.length
decreasing_by all_goals simp only [List.length_drop, List.length_cons]; omega

/-- The bytes of symbols, one after another. -/
def ofSymbols (s : List Symbol) : Text :=
  s.flatMap Symbol.bytes

/-- The number of symbols. -/
def width (t : Text) : Nat :=
  (symbols t).length

/-- The string with these bytes, where they are UTF-8. -/
def toString? (t : Text) : Option String :=
  ((symbols t).mapM Symbol.char?).map String.ofList

end Jolt.Text
