import Jolt.Yaml.Scalar

/-!
# Block scalars

A block scalar stands on lines of its own, indented more than what it belongs to. Behind a bar its lines are kept as they
are, behind an angle bracket those that are not indented further are folded. A sign says what becomes of the line breaks at
the end, a digit how far the lines are indented.
-/

namespace Jolt.Yaml

/-- What becomes of the line breaks at the end: the first is kept, or none, or all. -/
inductive Chomping where
  | clip
  | strip
  | keep
deriving DecidableEq

/-- Takes a sign for the end off the front. -/
def takeChomping : List Char → Option Chomping × List Char
  | '+' :: cs => (some .keep, cs)
  | '-' :: cs => (some .strip, cs)
  | cs => (none, cs)

/-- Takes a digit off the front. -/
def takeDigit : List Char → Option Nat × List Char
  | [] => (none, [])
  | c :: cs => if c.isDigit then (some (c.toNat - 48), cs) else (none, c :: cs)

/-- The sign and the digit behind the mark of a block scalar, in either order, and what follows them. -/
def readIndicators (cs : List Char) : Option Chomping × Option Nat × List Char :=
  match takeChomping cs, takeDigit cs with
  | (some chomping, cs), _ =>
    let (digit, cs) := takeDigit cs
    (some chomping, digit, cs)
  | _, (some digit, cs) =>
    let (chomping, cs) := takeChomping cs
    (chomping, some digit, cs)
  | _, _ => (none, none, cs)

/-- What follows a comment, if one starts here. -/
def afterComment (cs : List Char) : List Char :=
  if cs.head? = some '#' then cs.dropWhile (!isBreak ·) else cs

/-- Goes over a line break, if one is here. -/
def takeBreak : List Char → Mark → Option Char × List Char × Mark
  | [], m => (none, [], m)
  | c :: cs, m =>
    if isBreak c then
      match c, cs with
      | '\r', '\n' :: cs => (some '\n', cs, m.nextLine 2)
      | _, cs => (some (breakChar c), cs, m.nextLine 1)
    else (none, c :: cs, m)

/-- What was read before a line of a block scalar: the line breaks in reverse, and the deepest indentation. -/
structure Indentation where
  breaks : List Char
  deepest : Nat
  rest : List Char
  mark : Mark

/-- Goes over empty lines and the indentation of the next line, which is `indent`, or any if that is zero. -/
def skipIndentation (start : Mark) (indent : Nat) :
    List Char → Mark → List Char → Nat → Except Problem Indentation
  | [], m, breaks, deepest => .ok ⟨breaks, max deepest m.column, [], m⟩
  | c :: cs, m, breaks, deepest =>
    let counts := indent = 0 || decide (m.column < indent)
    if c = ' ' && counts then skipIndentation start indent cs m.next breaks deepest
    else if c = '\t' && counts then
      .error (.ofCharacters start m "found a tab character where an indentation space is expected")
    else if isBreak c then
      match c, cs with
      | '\r', '\n' :: cs => skipIndentation start indent cs (m.nextLine 2) ('\n' :: breaks) (max deepest m.column)
      | _, cs => skipIndentation start indent cs (m.nextLine 1) (breakChar c :: breaks) (max deepest m.column)
    else .ok ⟨breaks, max deepest m.column, c :: cs, m⟩

/-- Lines of a block scalar that were read, in reverse, with the break of the last one. -/
structure Lines where
  done : List Char
  lastBreak : Option Char
  /-- Whether the last line starts with a blank. -/
  blankFirst : Bool
  /-- What was read behind the last line. -/
  gap : Indentation

/-- What stands between two lines, in reverse: a single break between lines that are folded becomes a space. -/
def joined (literal : Bool) (l : Lines) (blankFirst : Bool) : List Char :=
  if !literal && !l.blankFirst && !blankFirst && l.lastBreak = some '\n' then
    if l.gap.breaks.isEmpty then [' '] else l.gap.breaks
  else l.gap.breaks ++ l.lastBreak.toList

/-- Reads the lines that are indented by `indent`, at most `n` of them. -/
def readLines (literal : Bool) (start : Mark) (indent : Nat) : Nat → Lines → Except Problem Lines
  | 0, l => .ok l
  | n + 1, l =>
    match l.gap.rest with
    | [] => .ok l
    | c :: cs =>
      if l.gap.mark.column ≠ indent then .ok l
      else do
        let line := (c :: cs).takeWhile (!isBreak ·)
        let (lastBreak, rest, mark) := takeBreak ((c :: cs).drop line.length) (l.gap.mark.advance line.length)
        let gap ← skipIndentation start indent rest mark [] 0
        let blankFirst := isBlank c
        readLines literal start indent n ⟨line.reverse ++ joined literal l blankFirst ++ l.done, lastBreak, blankFirst, gap⟩

/-- The text of lines, in reverse, with the breaks at their end. -/
def Lines.chomped (l : Lines) : Chomping → List Char
  | .clip => l.lastBreak.toList ++ l.done
  | .strip => l.done
  | .keep => l.gap.breaks ++ l.lastBreak.toList ++ l.done

/-- Reads a block scalar behind its mark, inside a block that is indented by `outer`. -/
def readBlockScalar (literal : Bool) (outer : Int) (start : Mark) (cs : List Char) : Except Problem ScalarEnd := do
  let (chomping, digit, rest) := readIndicators cs
  if digit = some 0 then .error (.ofCharacters start start "found an indentation indicator equal to 0")
  else
    let rest := afterComment (rest.dropWhile isBlank)
    if !(rest.head?.all isBreak) then
      .error (.ofCharacters start start "did not find expected comment or line break")
    else
      let (_, rest, mark) := takeBreak rest (start.advance (1 + (cs.length - rest.length)))
      let said := digit.map fun d => (max outer 0).toNat + d
      let gap ← skipIndentation start (said.getD 0) rest mark [] 0
      let indent := said.getD (max (max gap.deepest (outer + 1).toNat) 1)
      let lines ← readLines literal start indent (cs.length + 1) ⟨[], none, false, gap⟩
      .ok ⟨(lines.chomped (chomping.getD .clip)).reverse, lines.gap.rest, lines.gap.mark, true⟩

end Jolt.Yaml
