import Jolt.Yaml.Mark

/-!
# The characters of a stream

A stream of bytes is UTF-8 or, after a byte order mark of two bytes, UTF-16. It is taken in blocks, and a block is looked at
only when one of its characters is needed. So what is wrong in a block stands behind all characters of the blocks before it
(`Source.problem`), and it does not matter to a reader who stops earlier.
-/

namespace Jolt.Yaml

/-- The characters that may stand in a stream. -/
def isAllowed (c : Char) : Bool :=
  c = '\t' || c = '\n' || c = '\r' || (0x20 ≤ c.val && c.val ≤ 0x7e) || c.val == 0x85
    || (0xa0 ≤ c.val && c.val ≤ 0xd7ff) || (0xe000 ≤ c.val && c.val ≤ 0xfffd)
    || (0x10000 ≤ c.val && c.val ≤ 0x10ffff)

/-- What stands at the front of bytes: a character and its length, the start of one whose end is missing, or something
wrong. -/
inductive Front where
  | character (c : Char) (length : Nat)
  | unfinished (message : String)
  | wrong (message : String)

/-! ## UTF-8 -/

/-- How many bytes a first byte says that its character has; zero where no character starts with it. -/
def lengthFrom (b : UInt8) : Nat :=
  if b < 128 then 1
  else if b < 192 then 0
  else if b < 224 then 2
  else if b < 240 then 3
  else if b < 248 then 4
  else 0

/-- Whether a first byte and the one after it say a length that is more than the character needs. -/
def isOverlong (first second : UInt8) : Bool :=
  (192 ≤ first && first < 194) || (first = 224 && second < 160) || (first = 240 && second < 144)

/-- The front of a byte and those that follow it, in UTF-8. -/
def frontOfBytes (first : UInt8) (others : Text) : Front :=
  let length := lengthFrom first
  let own := others.take (length - 1)
  if length = 0 then .wrong "invalid leading UTF-8 octet"
  else if own.length < length - 1 then .unfinished "incomplete UTF-8 octet sequence"
  else if own.any fun b => (Text.continuation? b).isNone then .wrong "invalid trailing UTF-8 octet"
  else if isOverlong first (own.headD 0) then .wrong "invalid length of a UTF-8 sequence"
  else match Text.firstChar? (first :: own) with
    | some c => .character c length
    | none => .wrong "invalid Unicode character"

/-! ## UTF-16 -/

/-- The unit of two bytes. -/
def unitOf (highFirst : Bool) (a b : UInt8) : Nat :=
  if highFirst then 256 * a.toNat + b.toNat else 256 * b.toNat + a.toNat

/-- Whether a unit is the first of a pair. -/
def isHighUnit (n : Nat) : Bool :=
  n / 1024 = 54

/-- Whether a unit is the second of a pair. -/
def isLowUnit (n : Nat) : Bool :=
  n / 1024 = 55

/-- The front of units, in UTF-16. -/
def frontOfUnits (highFirst : Bool) : Text → Front
  | a :: b :: rest =>
    let high := unitOf highFirst a b
    if isLowUnit high then .wrong "unexpected low surrogate area"
    else if isHighUnit high then
      match rest with
      | c :: d :: _ =>
        let low := unitOf highFirst c d
        if isLowUnit low then .character (Char.ofNat (0x10000 + high % 1024 * 1024 + low % 1024)) 4
        else .wrong "expected low surrogate area"
      | _ => .unfinished "incomplete UTF-16 surrogate pair"
    else .character (Char.ofNat high) 2
  | _ => .unfinished "incomplete UTF-16 character"

/-! ## Blocks -/

/-- How characters are written as bytes. -/
inductive Encoding where
  | bytes
  | units (highFirst : Bool)

/-- The front of a byte and those that follow it. -/
def Encoding.front : Encoding → UInt8 → Text → Front
  | bytes, first, others => frontOfBytes first others
  | units highFirst, first, others => frontOfUnits highFirst (first :: others)

/-- The characters of a block, and the bytes at its end that need some of the next block. -/
def readBlock (e : Encoding) : Text → Except String (List Char × Text)
  | [] => .ok ([], [])
  | a :: r =>
    match e.front a r with
    | .unfinished _ => .ok ([], a :: r)
    | .wrong message => .error message
    | .character c length =>
      if isAllowed c then (readBlock e (r.drop (length - 1))).map fun (cs, left) => (c :: cs, left)
      else .error "control characters are not allowed"
termination_by t => t.length
decreasing_by simp only [List.length_drop, List.length_cons]; omega

/-- Characters, and what is wrong behind them. -/
structure Source where
  characters : List Char
  problem : Option Problem

namespace Source

/-- What is wrong with bytes that are left when no block follows. -/
def problemOfRest (e : Encoding) : Text → Option Problem
  | [] => none
  | a :: r =>
    match e.front a r with
    | .unfinished message => some (.general (utf8 message))
    | _ => none

/-- The size of a block. -/
def blockSize : Nat :=
  512

/-- The characters of at most `n` blocks, the first of which has `size` bytes. -/
def ofBlocks (e : Encoding) : Nat → Nat → Text → Source
  | 0, _, _ => ⟨[], none⟩
  | n + 1, size, t =>
    match readBlock e (t.take size) with
    | .error message => ⟨[], some (.general (utf8 message))⟩
    | .ok (cs, left) =>
      let later := t.drop size
      if later.isEmpty then ⟨cs, problemOfRest e left⟩
      else
        let s := ofBlocks e n blockSize (left ++ later)
        ⟨cs ++ s.characters, s.problem⟩

/-- The characters of bytes. A byte order mark at their start says how they are written and does not count. -/
def ofText (t : Text) : Source :=
  match t with
  | 0xff :: 0xfe :: r => ofBlocks (.units false) (t.length + 1) (blockSize - 2) r
  | 0xfe :: 0xff :: r => ofBlocks (.units true) (t.length + 1) (blockSize - 2) r
  | 0xef :: 0xbb :: 0xbf :: r => ofBlocks .bytes (t.length + 1) (blockSize - 3) r
  | t => ofBlocks .bytes (t.length + 1) blockSize t

end Source

end Jolt.Yaml
