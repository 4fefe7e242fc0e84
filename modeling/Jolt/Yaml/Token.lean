import Jolt.Yaml.Block
import Jolt.Yaml.Property

/-!
# YAML tokens

The characters of a stream are cut into tokens. Indentation opens and closes block collections.

A key is known as one only when the colon after it is found, so its token is put in before what has been read since
(`Stream.insert`). A token that may still turn out to be a key is held back (`Stream.ready`), and no token is given out
before two more have been read. A token that has been given out cannot get anything in front of it any more: what belongs
there then stands at the end.
-/

namespace Jolt.Yaml

/-- What a token is. -/
inductive Sign where
  | streamStart
  | directive (d : Directive)
  | documentStart
  | documentEnd
  | blockSequenceStart
  | blockMappingStart
  | blockEnd
  | flowSequenceStart
  | flowSequenceEnd
  | flowMappingStart
  | flowMappingEnd
  | blockEntry
  | flowEntry
  | key
  | value
  | anchor (name : Text)
  | reference (name : Text)
  | tag (t : WrittenTag)
  | scalar (text : Text) (plain : Bool)
  | streamEnd
deriving DecidableEq

/-- A token and where it starts. -/
structure Token where
  sign : Sign
  mark : Mark
deriving DecidableEq

/-- What is known of the last token of a level that could start a key: its number and place, whether it can still be one,
and whether it has to be. -/
structure PossibleKey where
  possible : Bool
  required : Bool
  number : Nat
  mark : Mark

/-- The state of reading tokens. -/
structure Stream where
  /-- How many characters the stream had at its start. -/
  size : Nat
  rest : List Char
  /-- What is wrong with the stream at its end. -/
  behind : Option Problem
  mark : Mark
  /-- The tokens that have not been given out. -/
  queue : List Token
  /-- How many tokens have been given out. -/
  taken : Nat
  /-- The indentation of the open block collections, the innermost first. -/
  indents : List Nat
  /-- What may be a key, at the outermost level and in each open bracket, the innermost first. -/
  keys : List PossibleKey
  /-- The numbers of tokens that may be keys, each with its level. -/
  held : List (Nat × Nat)
  /-- Whether a key may start here. -/
  keyAllowed : Bool
  /-- Whether a line has ended since the last token. -/
  lineEnded : Bool
  /-- Whether the stream starts with a byte order mark. The first character of a line is passed over then. -/
  marked : Bool

namespace Stream

/-- The start of a stream. -/
def start (s : Source) : Stream where
  size := s.characters.length
  rest := s.characters
  behind := s.problem
  mark := .start
  queue := [⟨.streamStart, .start⟩]
  taken := 0
  indents := []
  keys := [⟨false, false, 0, .start⟩]
  held := []
  keyAllowed := true
  lineEnded := false
  marked := s.characters.head?.any (·.val == 0xfeff)

/-- Whether a bracket is open. -/
def inFlow (s : Stream) : Bool :=
  !(s.keys.drop 1).isEmpty

/-- The indentation of the innermost block collection, or minus one. -/
def indent (s : Stream) : Int :=
  match s.indents with
  | [] => -1
  | n :: _ => n

/-- The number of the next token. -/
def number (s : Stream) : Nat :=
  s.taken + s.queue.length

/-- Adds a token at the end. -/
def push (s : Stream) (sign : Sign) (mark : Mark) : Stream :=
  { s with queue := s.queue ++ [⟨sign, mark⟩] }

/-- Puts a token before the one with a number, or at the end if that one has been given out. -/
def insert (s : Stream) (number : Nat) (sign : Sign) (mark : Mark) : Stream :=
  if number < s.taken then s.push sign mark
  else
    let n := number - s.taken
    { s with queue := s.queue.take n ++ [⟨sign, mark⟩] ++ s.queue.drop n }

/-- Goes on behind `n` characters of the line. -/
def skip (s : Stream) (n : Nat) : Stream :=
  { s with rest := s.rest.drop n, mark := s.mark.advance n }

/-- Goes on where only `rest` is left of the line and what follows it. -/
def skipTo (s : Stream) (rest : List Char) : Stream :=
  s.skip (s.rest.length - rest.length)

/-! ## Between tokens -/

/-- How far a comment may be from the end of what is before it. -/
def commentReach : Nat :=
  512

/-- How many characters behind a line break the next comment starts, if only white space is before it. -/
def commentAhead? : List Char → Option Nat
  | [] => none
  | c :: cs =>
    let gap := cs.takeWhile fun c => isBlank c || c = '\n' || c = '\r'
    let distance := gap.length + 1
    if (c = '\n' || c = '\r') && decide (distance < commentReach) && (cs.drop gap.length).head? = some '#' then
      some distance
    else none

/-- What is being passed over: white space at its start or later, a comment, or what is between two comments. -/
inductive Passing where
  | first
  | blanks
  | comment
  | between (left : Nat)
deriving DecidableEq

/-- Goes to the next character that may start a token, over blanks, line breaks and comments. A tab may not stand where
indentation counts, unless a comment was before it and another one follows. -/
def skipGap (inFlow marked : Bool) : Passing → Bool → List Char → Mark → List Char × Mark × Bool
  | _, keyAllowed, [], m => ([], m, keyAllowed)
  | .between (left + 1), keyAllowed, c :: cs, m =>
    match c, cs with
    | '\r', '\n' :: cs => skipGap inFlow marked (.between (left - 1)) keyAllowed cs (m.nextLine 2)
    | _, cs => skipGap inFlow marked (.between left) keyAllowed cs (if isBreak c then m.nextLine 1 else m.next)
  | .between 0, keyAllowed, _ :: cs, m => skipGap inFlow marked .comment keyAllowed cs m.next
  | passing, keyAllowed, c :: cs, m =>
    if passing = .first && marked && m.column = 0 then skipGap inFlow marked .blanks keyAllowed cs m.next
    else if isBreak c then
      match (if passing = .comment then commentAhead? (c :: cs) else none), c, cs with
      | some n, '\r', '\n' :: cs => skipGap inFlow marked (.between (n - 2)) keyAllowed cs (m.nextLine 2)
      | some n, _, cs => skipGap inFlow marked (.between (n - 1)) keyAllowed cs (m.nextLine 1)
      | none, '\r', '\n' :: cs => skipGap inFlow marked .first (keyAllowed || !inFlow) cs (m.nextLine 2)
      | none, _, cs => skipGap inFlow marked .first (keyAllowed || !inFlow) cs (m.nextLine 1)
    else if passing = .comment || c = '#' then skipGap inFlow marked .comment keyAllowed cs m.next
    else if c = ' ' || ((inFlow || !keyAllowed) && c = '\t') then skipGap inFlow marked .blanks keyAllowed cs m.next
    else (c :: cs, m, keyAllowed)

/-- Goes over a comment that follows on the same line. -/
def skipLineComment (s : Stream) : Stream :=
  let gap := s.rest.takeWhile isBlank
  let rest := s.rest.drop gap.length
  if decide (gap.length < commentReach) && rest.head? = some '#' then
    s.skip (gap.length + (rest.takeWhile (!isBreak ·)).length)
  else s

/-! ## Indentation -/

/-- The deepest that collections can be nested. -/
def maxDepth : Nat :=
  10000

/-- The complaint about collections that are nested too deep. -/
def tooDeep (s : Stream) : Problem :=
  .ofCharacters ((s.keys.head?.map (·.mark)).getD s.mark) s.mark "exceeded max depth of 10000"

/-- Closes the block collections that are indented more than a column. -/
def unroll (column : Int) (mark : Mark) : List Nat → List Nat × List Token
  | [] => ([], [])
  | n :: rest =>
    if column < n then
      let (left, closed) := unroll column mark rest
      (left, ⟨.blockEnd, mark⟩ :: closed)
    else (n :: rest, [])

/-- Closes block collections down to a column; inside brackets indentation does not count. -/
def dedent (s : Stream) (column : Int) : Stream :=
  if s.inFlow then s
  else
    let (indents, closed) := unroll column s.mark s.indents
    { s with indents := indents, queue := s.queue ++ closed }

/-- Opens a block collection where a column is indented more than the innermost one. -/
def roll (s : Stream) (column number : Nat) (sign : Sign) (mark : Mark) : Except Problem Stream :=
  if s.inFlow || decide ((column : Int) ≤ s.indent) then .ok s
  else
    let s := { s.insert number sign mark with indents := column :: s.indents }
    if maxDepth < s.indents.length then .error s.tooDeep else .ok s

/-! ## Keys -/

/-- What may be a key at the innermost level. -/
def key (s : Stream) : PossibleKey :=
  s.keys.headD ⟨false, false, 0, .start⟩

/-- Sets what may be a key at the innermost level. -/
def setKey (s : Stream) (key : PossibleKey) : Stream :=
  { s with keys := key :: s.keys.drop 1 }

/-- Releases a token that was held back. -/
def release (s : Stream) (number : Nat) : Stream :=
  { s with held := s.held.filter (·.1 ≠ number) }

/-- The complaint about a token that had to be a key. -/
def missingColon (s : Stream) (key : PossibleKey) : Problem :=
  .ofCharacters key.mark s.mark "could not find expected ':'"

/-- Gives up the possible key of the innermost level. -/
def dropKey (s : Stream) : Except Problem Stream :=
  if !s.key.possible then .ok s
  else if s.key.required then .error (s.missingColon s.key)
  else .ok ((s.setKey { s.key with possible := false }).release s.key.number)

/-- Notes that the next token may be a key. -/
def noteKey (s : Stream) : Except Problem Stream :=
  if s.keyAllowed then do
    let required := !s.inFlow && decide (s.indent = s.mark.column)
    let number := s.number
    let t := (← s.dropKey).setKey ⟨true, required, number, s.mark⟩
    .ok { t with held := (number, t.keys.length - 1) :: t.held }
  else .ok s

/-- Whether a possible key is still one: on the same line and at most 1024 characters back. -/
def isValid (s : Stream) (key : PossibleKey) : Except Problem Bool :=
  if !key.possible then .ok false
  else if key.mark.line < s.mark.line || key.mark.index + 1024 < s.mark.index then
    if key.required then .error (s.missingColon key) else .ok false
  else .ok true

/-- Whether the next token is held back by a possible key. One that is none any more is given up. -/
def isHeld (s : Stream) : Except Problem (Bool × Stream) :=
  match s.held.find? (·.1 = s.taken) with
  | none => .ok (false, s)
  | some (_, level) =>
    let i := s.keys.length - 1 - level
    match s.keys[i]? with
    | none => .ok (false, s)
    | some key => do
      if ← s.isValid key then .ok (true, s)
      else .ok (false, { s.release s.taken with keys := s.keys.set i { key with possible := false } })

/-! ## Tokens -/

/-- The end of the stream. -/
def fetchEnd (s : Stream) : Except Problem Stream := do
  let s := if s.mark.column = 0 then s else { s with mark := s.mark.nextLine 0 }
  let s ← (s.dedent (-1)).dropKey
  .ok { s.push .streamEnd s.mark with keyAllowed := false }

/-- A directive, with the rest of its line. -/
def fetchDirective (s : Stream) : Except Problem Stream := do
  let s ← (s.dedent (-1)).dropKey
  let (directive, rest) ← readDirective s.mark (s.rest.drop 1)
  let rest := afterComment (rest.dropWhile isBlank)
  if !(rest.head?.all isBreak) then
    .error (.ofCharacters s.mark s.mark "did not find expected comment or line break")
  else
    let t := (s.push (.directive directive) s.mark).skipTo rest
    let (_, rest, mark) := takeBreak t.rest t.mark
    .ok { t with rest := rest, mark := mark, keyAllowed := false }

/-- A document mark. -/
def fetchDocumentMark (s : Stream) (sign : Sign) : Except Problem Stream := do
  let s ← (s.dedent (-1)).dropKey
  .ok { (s.push sign s.mark).skip 3 with keyAllowed := false }

/-- An opening bracket. Until something inside it may be a key, its level has the number of the bracket. -/
def fetchFlowStart (s : Stream) (sign : Sign) : Except Problem Stream := do
  let s ← s.noteKey
  let t := { s with keys := ⟨false, false, s.number, s.mark⟩ :: s.keys }
  if maxDepth + 1 < t.keys.length then .error t.tooDeep
  else .ok { (t.push sign s.mark).skip 1 with keyAllowed := true }

/-- A closing bracket. -/
def fetchFlowEnd (s : Stream) (sign : Sign) : Except Problem Stream := do
  let s ← s.dropKey
  let t := match s.keys with
    | key :: outer :: keys => { s.release key.number with keys := outer :: keys }
    | _ => s
  .ok { (t.push sign s.mark).skip 1 with keyAllowed := false }

/-- A comma in brackets. -/
def fetchFlowEntry (s : Stream) : Except Problem Stream := do
  let s ← s.dropKey
  .ok { (s.push .flowEntry s.mark).skip 1 with keyAllowed := true }

/-- The hyphen of an entry. -/
def fetchBlockEntry (s : Stream) : Except Problem Stream := do
  if !s.inFlow && !s.keyAllowed then
    .error (.ofCharacters s.mark s.mark "block sequence entries are not allowed in this context")
  else
    let s ← (← s.roll s.mark.column s.number .blockSequenceStart s.mark).dropKey
    .ok { (s.push .blockEntry s.mark).skip 1 with keyAllowed := true }

/-- The question mark of a key. -/
def fetchKey (s : Stream) : Except Problem Stream := do
  if !s.inFlow && !s.keyAllowed then
    .error (.ofCharacters s.mark s.mark "mapping keys are not allowed in this context")
  else
    let s ← (← s.roll s.mark.column s.number .blockMappingStart s.mark).dropKey
    .ok { (s.push .key s.mark).skip 1 with keyAllowed := !s.inFlow }

/-- The colon before a value. -/
def fetchValue (s : Stream) : Except Problem Stream := do
  let key := s.key
  if ← s.isValid key then
    let s ← (s.insert key.number .key key.mark).roll key.mark.column key.number .blockMappingStart key.mark
    let s := (s.setKey { key with possible := false }).release key.number
    .ok { (s.push .value s.mark).skip 1 with keyAllowed := false }
  else if !s.inFlow && !s.keyAllowed then
    .error (.ofCharacters s.mark s.mark "mapping values are not allowed in this context")
  else
    let s ← (s.setKey { key with possible := false }).roll s.mark.column s.number .blockMappingStart s.mark
    .ok { (s.push .value s.mark).skip 1 with keyAllowed := !s.inFlow }

/-- The name of a node, or a name that stands for one. -/
def fetchName (s : Stream) (sign : Text → Sign) : Except Problem Stream := do
  let s ← s.noteKey
  let (name, rest) ← readName s.mark (s.rest.drop 1)
  .ok { (s.push (sign name) s.mark).skipTo rest with keyAllowed := false }

/-- The tag of a node. -/
def fetchTag (s : Stream) : Except Problem Stream := do
  let s ← s.noteKey
  let (tag, rest) ← readTag s.mark (s.rest.drop 1)
  .ok { (s.push (.tag tag) s.mark).skipTo rest with keyAllowed := false }

/-- Puts a scalar that was read behind the tokens. -/
def pushScalar (s : Stream) (e : ScalarEnd) (plain : Bool) : Stream :=
  { s.push (.scalar (textOf e.text) plain) s.mark with
    rest := e.rest, mark := e.mark, keyAllowed := e.crossedLine, lineEnded := e.crossedLine }

/-- A block scalar. -/
def fetchBlockScalar (s : Stream) (literal : Bool) : Except Problem Stream := do
  let s ← s.dropKey
  let e ← readBlockScalar literal s.indent s.mark (s.rest.drop 1)
  .ok (s.pushScalar e false)

/-- A quoted scalar. -/
def fetchQuoted (s : Stream) (single : Bool) : Except Problem Stream := do
  let s ← s.noteKey
  let e ← readQuoted single s.mark s.behind (s.rest.drop 1) s.mark.next (.text .none) []
  .ok (s.pushScalar e false)

/-- A plain scalar. -/
def fetchPlain (s : Stream) : Except Problem Stream := do
  let s ← s.noteKey
  let e ← readPlain s.inFlow (s.indent + 1) s.mark s.rest s.mark .none []
  .ok (s.pushScalar e true)

/-- The characters that no plain scalar starts with. -/
def isIndicator (c : Char) : Bool :=
  ['-', '?', ':', ',', '[', ']', '\x7b', '\x7d', '#', '&', '*', '!', '|', '>', '\'', '"', '%', '@', '\x60'].contains c

/-- Whether a plain scalar starts with these characters. -/
def startsPlain (inFlow : Bool) : List Char → Bool
  | [] => false
  | c :: cs =>
    !(isBlank c || isBreak c || isIndicator c) || (c = '-' && !(cs.head?.any isBlank))
      || (!inFlow && (c = '?' || c = ':') && !atWordEnd cs)

/-- The token at a character inside a document. -/
def fetchInside (s : Stream) (c : Char) (cs : List Char) : Except Problem Stream :=
  if c = '[' then s.fetchFlowStart .flowSequenceStart
  else if c = '\x7b' then s.fetchFlowStart .flowMappingStart
  else if c = ']' then s.fetchFlowEnd .flowSequenceEnd
  else if c = '\x7d' then s.fetchFlowEnd .flowMappingEnd
  else if c = ',' then s.fetchFlowEntry
  else if c = '-' && atWordEnd cs then s.fetchBlockEntry
  else if c = '?' && (s.inFlow || atWordEnd cs) then s.fetchKey
  else if c = ':' && (s.inFlow || atWordEnd cs) then s.fetchValue
  else if c = '*' then s.fetchName .reference
  else if c = '&' then s.fetchName .anchor
  else if c = '!' then s.fetchTag
  else if c = '|' && !s.inFlow then s.fetchBlockScalar true
  else if c = '>' && !s.inFlow then s.fetchBlockScalar false
  else if c = '\'' then s.fetchQuoted true
  else if c = '"' then s.fetchQuoted false
  else if startsPlain s.inFlow (c :: cs) then s.fetchPlain
  else .error (.ofCharacters s.mark s.mark "found character that cannot start any token")

/-- The token at a character, and the comment behind it. The hyphen of an entry has no comment of its own. -/
def fetchAt (s : Stream) (c : Char) (cs : List Char) : Except Problem Stream :=
  if s.mark.column = 0 && c = '%' then s.fetchDirective
  else if s.mark.column = 0 && atDocumentMark (c :: cs) then
    s.fetchDocumentMark (if c = '-' then .documentStart else .documentEnd)
  else do
    let s ← s.fetchInside c cs
    .ok (if s.lineEnded || s.queue.getLast?.any (·.sign = .blockEntry) then s else s.skipLineComment)

/-- Fails with what is behind the stream where fewer than `n` characters are left of it. -/
def require (s : Stream) (n : Nat) : Except Problem Unit :=
  match s.behind with
  | some p => if (s.rest.drop (n - 1)).isEmpty then .error p else .ok ()
  | none => .ok ()

/-- Reads one more token. -/
def fetch (s : Stream) : Except Problem Stream := do
  let (rest, mark, keyAllowed) := skipGap s.inFlow s.marked .first s.keyAllowed s.rest s.mark
  let s := { s with rest := rest, mark := mark, keyAllowed := keyAllowed, lineEnded := false }
  s.require 4
  let s := { s.dedent s.mark.column with marked := s.marked && !(rest.drop 3).isEmpty }
  let s ← match rest with
    | [] => s.fetchEnd
    | c :: cs => s.fetchAt c cs
  s.require 1
  .ok s

/-- Reads on until the next token can be given out, at most `n` tokens. -/
def ready : Nat → Stream → Except Problem Stream
  | 0, s => .ok s
  | n + 1, s =>
    if (s.queue.drop 2).isEmpty then s.fetch >>= ready n
    else do
      let (held, s) ← s.isHeld
      if held then s.fetch >>= ready n else .ok s

/-- Gives the next token. Every token but the last ones takes a character, so the stream's size bounds their number. -/
def peek (s : Stream) : Except Problem (Token × Stream) := do
  let s ← s.ready (s.size + 4)
  .ok (s.queue.headD ⟨.streamEnd, s.mark⟩, s)

/-- Takes the next token. -/
def take (s : Stream) : Stream :=
  { s.release s.taken with queue := s.queue.drop 1, taken := s.taken + 1 }

end Stream

end Jolt.Yaml
