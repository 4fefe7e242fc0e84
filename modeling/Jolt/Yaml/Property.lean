import Jolt.Yaml.Source
import Jolt.Yaml.Scalar

/-!
# Anchors, tags and directives

A node can have a name behind an ampersand and a tag behind an exclamation mark; a name behind an asterisk stands for the
node that has it. A tag is given by a handle and a suffix. A directive before a document says its version, or what a handle
stands for. None of them goes beyond its line.
-/

namespace Jolt.Yaml

/-- The characters of names. -/
def isNameChar (c : Char) : Bool :=
  c.isAlphanum || c = '_' || c = '-'

/-- Whether a name can end before these characters. -/
def endsName : List Char → Bool
  | [] => true
  | c :: cs => atWordEnd (c :: cs) || ['?', ':', ',', ']', '\x7d', '%', '@', '\x60'].contains c

/-- Reads a name, and gives it with what follows. -/
def readName (start : Mark) (cs : List Char) : Except Problem (Text × List Char) :=
  let name := cs.takeWhile isNameChar
  let rest := cs.dropWhile isNameChar
  if name.isEmpty || !endsName rest then
    .error (.ofCharacters start start "did not find expected alphabetic or numeric character")
  else .ok (textOf name, rest)

/-! ## Tags -/

/-- The characters of tags. -/
def isTagChar (c : Char) : Bool :=
  isNameChar c || [';', '/', '?', ':', '@', '&', '=', '+', '$', ',', '.', '%', '!', '~', '*', '\'', '(', ')', '[',
    ']'].contains c

/-- Reads the characters of a tag behind those in `done`, which is in reverse. A byte can be written as a percent sign and
two digits; `due` is how many more bytes of a character have to follow in this way. -/
def readTagChars (start : Mark) : Nat → List Char → Text → Except Problem (Text × List Char)
  | due, '%' :: a :: b :: cs, done =>
    match hexValue? a, hexValue? b with
    | some high, some low =>
      let byte := UInt8.ofNat (16 * high + low)
      match due, lengthFrom byte with
      | 0, 0 => .error (.ofCharacters start start "found an incorrect leading UTF-8 octet")
      | 0, length + 1 => readTagChars start length cs (byte :: done)
      | due + 1, _ =>
        if (Text.continuation? byte).isSome then readTagChars start due cs (byte :: done)
        else .error (.ofCharacters start start "found an incorrect trailing UTF-8 octet")
    | _, _ => .error (.ofCharacters start start "did not find URI escaped octet")
  | due, c :: cs, done =>
    if due ≠ 0 || c = '%' then .error (.ofCharacters start start "did not find URI escaped octet")
    else if isTagChar c then readTagChars start 0 cs ((textOf [c]).reverse ++ done)
    else .ok (done.reverse, c :: cs)
  | due, [], done =>
    if due ≠ 0 then .error (.ofCharacters start start "did not find URI escaped octet") else .ok (done.reverse, [])

/-- Reads the suffix of a tag, which has to have a character. -/
def readSuffix (start : Mark) (cs : List Char) : Except Problem (Text × List Char) := do
  let (suffix, rest) ← readTagChars start 0 cs []
  if suffix.isEmpty then .error (.ofCharacters start start "did not find expected tag URI") else .ok (suffix, rest)

/-- The handle of a tag: exclamation marks around a name. -/
structure Handle where
  name : List Char
  /-- Whether a second exclamation mark follows the name. -/
  closed : Bool
  rest : List Char

/-- Reads a handle behind its first exclamation mark. -/
def readHandle (cs : List Char) : Handle :=
  let name := cs.takeWhile isNameChar
  match cs.dropWhile isNameChar with
  | '!' :: rest => ⟨name, true, rest⟩
  | rest => ⟨name, false, rest⟩

/-- The text of a handle. -/
def Handle.text (h : Handle) : Text :=
  utf8 "!" ++ textOf h.name ++ (if h.closed then utf8 "!" else [])

/-- A tag as it is written: a handle, which may be empty, and a suffix. -/
structure WrittenTag where
  handle : Text
  suffix : Text
deriving DecidableEq

/-- Reads the tag behind an exclamation mark up to what ends it. -/
def readTagBody (start : Mark) : List Char → Except Problem (WrittenTag × List Char)
  | '<' :: cs => do
    let (suffix, rest) ← readSuffix start cs
    match rest with
    | '>' :: rest => .ok (⟨[], suffix⟩, rest)
    | _ => .error (.ofCharacters start start "did not find the expected '>'")
  | cs =>
    let handle := readHandle cs
    if handle.closed then do
      let (suffix, rest) ← readSuffix start handle.rest
      .ok (⟨handle.text, suffix⟩, rest)
    else do
      let (suffix, rest) ← readTagChars start 0 handle.rest (textOf handle.name).reverse
      .ok (if suffix.isEmpty then ⟨[], utf8 "!"⟩ else ⟨utf8 "!", suffix⟩, rest)

/-- Reads a tag behind its exclamation mark. -/
def readTag (start : Mark) (cs : List Char) : Except Problem (WrittenTag × List Char) := do
  let (tag, rest) ← readTagBody start cs
  if atWordEnd rest then .ok (tag, rest)
  else .error (.ofCharacters start start "did not find expected whitespace or line break")

/-! ## Directives -/

/-- What a directive says. -/
inductive Directive where
  | version (major minor : Nat)
  | tag (handle stem : Text)
deriving DecidableEq

/-- Reads a number of a version, which has one or two digits. -/
def readVersionNumber (start : Mark) (cs : List Char) : Except Problem (Nat × List Char) :=
  let digits := cs.takeWhile Char.isDigit
  if 2 < digits.length then .error (.ofCharacters start start "found extremely long version number")
  else if digits.isEmpty then .error (.ofCharacters start start "did not find expected version number")
  else .ok (digits.foldl (fun n c => 10 * n + (c.toNat - 48)) 0, cs.dropWhile Char.isDigit)

/-- Reads a version. -/
def readVersion (start : Mark) (cs : List Char) : Except Problem (Directive × List Char) := do
  let (major, rest) ← readVersionNumber start cs
  match rest with
  | '.' :: rest =>
    let (minor, rest) ← readVersionNumber start rest
    .ok (.version major minor, rest)
  | _ => .error (.ofCharacters start start "did not find expected digit or '.' character")

/-- Reads a handle and what it stands for. -/
def readTagDirective (start : Mark) : List Char → Except Problem (Directive × List Char)
  | '!' :: cs =>
    let handle := readHandle cs
    if !handle.closed && !handle.name.isEmpty then
      .error (.ofCharacters start start "did not find expected '!'")
    else if !(handle.rest.head?.any isBlank) then
      .error (.ofCharacters start start "did not find expected whitespace")
    else do
      let (stem, rest) ← readSuffix start (handle.rest.dropWhile isBlank)
      if atWordEnd rest then .ok (.tag handle.text stem, rest)
      else .error (.ofCharacters start start "did not find expected whitespace or line break")
  | _ => .error (.ofCharacters start start "did not find expected '!'")

/-- Reads a directive behind its percent sign. -/
def readDirective (start : Mark) (cs : List Char) : Except Problem (Directive × List Char) :=
  let name := cs.takeWhile isNameChar
  let rest := cs.dropWhile isNameChar
  if name.isEmpty then .error (.ofCharacters start start "could not find expected directive name")
  else if !atWordEnd rest then .error (.ofCharacters start start "found unexpected non-alphabetical character")
  else if name = ['Y', 'A', 'M', 'L'] then readVersion start (rest.dropWhile isBlank)
  else if name = ['T', 'A', 'G'] then readTagDirective start (rest.dropWhile isBlank)
  else .error (.ofCharacters start start "found unknown directive name")

end Jolt.Yaml
