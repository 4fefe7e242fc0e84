import Jolt.Journal
import Jolt.Number.Literal

/-!
# Journals in files

A journal is kept as text: a heading, then a row for each entry with its state, its time, its session and its source. The
source stands in hexadecimal, so that no row holds a line feed. The number of an entry is that of its row.
-/

namespace Jolt.Journal

/-- The first line of a journal. -/
def heading : Text :=
  utf8 "jolt journal"

/-- Bytes in hexadecimal. -/
def hexText (t : Text) : Text :=
  t.flatMap fun b => Text.hex 2 b.toNat

/-- The bytes that are written in hexadecimal. -/
def ofHexText? : Text → Option Text
  | [] => some []
  | a :: b :: r => do
    let high ← Number.Literal.digit? a
    let low ← Number.Literal.digit? b
    let rest ← ofHexText? r
    return UInt8.ofNat (16 * high + low) :: rest
  | [_] => none

/-- The row of an entry. -/
def row (e : Entry) : Text :=
  Text.joinWith (utf8 " ") [if e.failed then utf8 "error" else utf8 "ok", (e.created.map Instant.text).getD (utf8 "-"),
    e.session, hexText e.source]

/-- The entry of a row, under a number. -/
def ofRow? (id : Nat) (t : Text) : Option Entry :=
  match Text.splitOn Byte.space t with
  | [state, created, session, source] =>
    (ofHexText? source).map fun source => ⟨id, session, source, state = utf8 "error", Instant.read? created⟩
  | _ => none

/-- A journal as text. -/
def toText (journal : Journal) : Text :=
  Text.unlines (heading :: journal.map row)

/-- The journal in a text. No text at all is a journal without entries. -/
def ofText? (t : Text) : Option Journal :=
  if t.isEmpty then some []
  else match Text.lines t with
    | first :: rows =>
      if first = heading then (rows.dropLast.zipIdx 1).mapM fun (t, id) => ofRow? id t else none
    | [] => none

end Jolt.Journal
