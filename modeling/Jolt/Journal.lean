import Jolt.Dialogue
import Jolt.Folder
import Jolt.Instant

/-!
# Journals

A journal keeps what was entered in sessions. Journals lie in files of the working folder; the entries of each have
numbers from one on. A `Desk` is where journals are opened, one at a time.
-/

namespace Jolt

/-- An entry of a journal. One without a time was made just now. -/
structure Entry where
  id : Int
  session : Text
  source : Text
  failed : Bool
  created : Option Instant
deriving DecidableEq

namespace Entry

/-- The ages at which the wording changes: the limit in seconds, the words, and the unit that is counted. -/
def ages : List (Nat × String × Nat) :=
  let minute := 60
  let hour := 60 * minute
  let day := 24 * hour
  let week := 7 * day
  let month := 30 * day
  let year := 12 * month
  [(2, "1 second", 0), (minute, "seconds", 1), (2 * minute, "1 minute", 0), (hour, "minutes", minute),
    (2 * hour, "1 hour", 0), (day, "hours", hour), (2 * day, "1 day", 0), (week, "days", day), (2 * week, "1 week", 0),
    (month, "weeks", week), (2 * month, "1 month", 0), (year, "months", month), (18 * month, "1 year", 0),
    (2 * year, "2 years", 0), (37 * year, "years", year)]

/-- An age in whole seconds, in words. A negative one lies in the future. -/
def ageText (age : Int) : Text :=
  let seconds := age.natAbs
  let label := if age < 0 then utf8 " from now" else utf8 " ago"
  if seconds = 0 then utf8 "now"
  else match ages.find? (seconds < ·.1) with
    | none => utf8 "a long while" ++ label
    | some (_, words, 0) => utf8 words ++ label
    | some (_, words, unit) => Text.ofNat (seconds / unit) ++ utf8 " " ++ utf8 words ++ label

/-- A text with spaces after it, up to a width in symbols. -/
def column (width : Nat) (t : Text) : Text :=
  Text.padRight width t.width t

/-- The age of an entry at an instant. Without a clock everything is made just now. -/
def age (e : Entry) (now : Option Instant) : Int :=
  match e.created, now with
  | some created, some now => created.secondsUntil now
  | _, _ => 0

/-- The line of an entry in a listing. Of the session only the first eight bytes are shown. -/
def line (e : Entry) (age : Int) : Text :=
  Text.padLeft 5 (Text.ofInt e.id) ++ utf8 "  " ++ column 8 (e.session.take 8) ++ utf8 "  "
    ++ column 5 (if e.failed then utf8 "error" else utf8 "ok") ++ utf8 "  " ++ column 16 (ageText age) ++ utf8 "  "
    ++ e.source.trim

end Entry

/-- The entries of one journal, oldest first. -/
abbrev Journal := List Entry

namespace Journal

/-- Adds an utterance under the next number. -/
def record (journal : Journal) (u : Utterance) (created : Option Instant) : Journal :=
  journal ++ [⟨journal.length + 1, u.session, u.source, u.failed, created⟩]

/-- The newest entries first, at most `limit` of them; a negative limit is none. -/
def recent (journal : Journal) (limit : Int) : List Entry :=
  if limit < 0 then journal.reverse else journal.reverse.take limit.toNat

/-- The entries of one session in order. -/
def ofSession (journal : Journal) (session : Text) : List Entry :=
  journal.filter (·.session = session)

end Journal

/-- A folder and the journals in it, by the place of their files. -/
structure Library where
  folder : Folder
  journals : List (List Text × Journal)

namespace Library

/-- The library of a folder in which no journal has been made. -/
def ofFolder (folder : Folder) : Library :=
  ⟨folder, []⟩

/-- The journal at a place. -/
def journal (library : Library) (place : List Text) : Journal :=
  (library.journals.lookup place).getD []

/-- Puts a journal at a place, over the one that is there. -/
def put (library : Library) (place : List Text) (journal : Journal) : Library :=
  { library with journals := (place, journal) :: library.journals.filter (·.1 ≠ place) }

/-- Whether a file lies at a place; a journal is one. -/
def hasFile (library : Library) (place : List Text) : Bool :=
  (library.folder.content? place).isSome || (library.journals.lookup place).isSome

/-- The first file among the directories that lead to a place. -/
def fileInTheWay? (library : Library) (directory : List Text) : Option (List Text) :=
  (Folder.ancestry directory).find? library.hasFile

/-- Opens the journal at a path, or makes it. The directories above it are made in any case. -/
def openJournal (library : Library) (path : Text) (cancelled : Bool) : Except Failure (List Text) × Library :=
  let place := Folder.place path
  match library.fileInTheWay? place.dropLast with
  | some file =>
    let reason := utf8 "mkdir " ++ Path.ofComponents file ++ utf8 ": not a directory"
    (.error (.during (utf8 "history: create directory") (.message reason)), library)
  | none =>
    let library := { library with folder := library.folder.addDirectory place.dropLast }
    if cancelled then
      (.error (.during (utf8 "history: ping " ++ path) (.message (utf8 "context canceled"))), library)
    else match library.folder.content? place with
      | some (_ :: _) =>
        (.error (.during (utf8 "history: create schema") (.message (utf8 "file is not a database (26)"))), library)
      | _ => (.ok place, library.put place (library.journal place))

end Library

/-- A journal that was opened: where it lies, and whether it has been closed since. -/
structure Desk where
  library : Library
  place : List Text
  isOpen : Bool

namespace Desk

/-- A desk without an open journal. -/
def ofFolder (folder : Folder) : Desk :=
  ⟨.ofFolder folder, [], false⟩

/-- Opens another journal. The one that is open stays so if that fails. -/
def openAt (desk : Desk) (path : Text) (cancelled : Bool) : Except Failure Unit × Desk :=
  match desk.library.openJournal path cancelled with
  | (.ok place, library) => (.ok (), ⟨library, place, true⟩)
  | (.error f, library) => (.error f, { desk with library := library })

/-- Closes the journal. -/
def close (desk : Desk) : Desk :=
  { desk with isOpen := false }

/-- Why nothing can be done with the journal at the moment. -/
def obstacle? (desk : Desk) (action : String) (cancelled : Bool) : Option Failure :=
  let refuse (reason : String) := some (.during (utf8 "history: " ++ utf8 action) (.message (utf8 reason)))
  if !desk.isOpen then refuse "sql: database is closed"
  else if cancelled then refuse "context canceled"
  else none

/-- Records an utterance. -/
def record (desk : Desk) (u : Utterance) (created : Option Instant) (cancelled : Bool) : Except Failure Unit × Desk :=
  match desk.obstacle? "record" cancelled with
  | some f => (.error f, desk)
  | none =>
    let journal := (desk.library.journal desk.place).record u created
    (.ok (), { desk with library := desk.library.put desk.place journal })

/-- Asks the journal for entries. -/
def query (desk : Desk) (ask : Journal → List Entry) (cancelled : Bool) : Except Failure (List Entry) :=
  match desk.obstacle? "query" cancelled with
  | some f => .error f
  | none => .ok (ask (desk.library.journal desk.place))

end Desk

end Jolt
