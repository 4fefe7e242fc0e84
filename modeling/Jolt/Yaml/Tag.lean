import Jolt.Number.Integer
import Jolt.Yaml.Mark

/-!
# Tags, and what a scalar stands for

A scalar with a tag of its own stands for what the tag says, and its text has to fit. A plain scalar without one can be
nothing, a truth value, an integer, a decimal number or a time; any other is a string.
-/

namespace Jolt.Yaml

/-- The tags that are known. -/
inductive Kind where
  | string
  | null
  | bool
  | int
  | float
  | timestamp
  | binary
  | merge
  | sequence
  | mapping
deriving DecidableEq

/-- The text of a known tag. -/
def Kind.tag : Kind → Text
  | string => utf8 "!!str"
  | null => utf8 "!!null"
  | bool => utf8 "!!bool"
  | int => utf8 "!!int"
  | float => utf8 "!!float"
  | timestamp => utf8 "!!timestamp"
  | binary => utf8 "!!binary"
  | merge => utf8 "!!merge"
  | sequence => utf8 "!!seq"
  | mapping => utf8 "!!map"

/-- What the tags of the standard start with. -/
def standardStem : Text :=
  utf8 "tag:yaml.org,2002:"

/-- A tag in short: the tags of the standard start with two exclamation marks. -/
def shortTag (tag : Text) : Text :=
  if standardStem.isPrefixOf tag then utf8 "!!" ++ tag.drop standardStem.length else tag

/-- What a scalar stands for. -/
inductive Meaning where
  | string (t : Text)
  | null
  | bool (b : Bool)
  | int (n : Int)
  | float (x : Number)
  | timestamp

/-- The kind of a meaning. -/
def Meaning.kind : Meaning → Kind
  | string _ => .string
  | null => .null
  | bool _ => .bool
  | int _ => .int
  | float _ => .float
  | timestamp => .timestamp

/-- The words that stand for a value. -/
def words : List (String × Meaning) :=
  [("", .null), ("~", .null), ("null", .null), ("Null", .null), ("NULL", .null), ("true", .bool true),
    ("True", .bool true), ("TRUE", .bool true), ("false", .bool false), ("False", .bool false), ("FALSE", .bool false),
    (".nan", .float .nan), (".NaN", .float .nan), (".NAN", .float .nan), (".inf", .float (.infinite false)),
    (".Inf", .float (.infinite false)), (".INF", .float (.infinite false)), ("+.inf", .float (.infinite false)),
    ("+.Inf", .float (.infinite false)), ("+.INF", .float (.infinite false)), ("-.inf", .float (.infinite true)),
    ("-.Inf", .float (.infinite true)), ("-.INF", .float (.infinite true))]

/-! ## Times -/

/-- Reads a number of one or two digits. -/
def readShort? : Text → Option (Nat × Text)
  | a :: b :: r =>
    if !Text.isDigit a then none
    else if Text.isDigit b then some (Text.toNat [a, b], r)
    else some (Text.toNat [a], b :: r)
  | [a] => if Text.isDigit a then some (Text.toNat [a], []) else none
  | [] => none

/-- What follows a byte, if it is at the front. -/
def after? (b : UInt8) : Text → Option Text
  | [] => none
  | c :: r => if c = b then some r else none

/-- How many days a month of a year has. -/
def daysIn (year month : Nat) : Nat :=
  if month = 2 then if year % 4 = 0 && (year % 100 ≠ 0 || year % 400 = 0) then 29 else 28
  else if [4, 6, 9, 11].contains month then 30
  else 31

/-- What follows a date of the calendar: a year of four digits, month and day of one or two. -/
def afterDate? (t : Text) : Option Text := do
  let year := t.takeWhile Text.isDigit
  if year.length ≠ 4 then none
  else
    let (month, r) ← readShort? (← after? Byte.minus (t.drop 4))
    let (day, r) ← readShort? (← after? Byte.minus r)
    if 1 ≤ month && month ≤ 12 && 1 ≤ day && decide (day ≤ daysIn (Text.toNat year) month) then some r else none

/-- What follows a fraction: a dot or a comma and digits. There may be none. -/
def afterFraction : Text → Text
  | a :: b :: r =>
    if (a = Byte.dot || a = Byte.comma) && Text.isDigit b then r.dropWhile Text.isDigit else a :: b :: r
  | t => t

/-- What follows a time of day: hour, minute and second of one or two digits, and a fraction. -/
def afterTimeOfDay? (t : Text) : Option Text := do
  let (hour, r) ← readShort? t
  let (minute, r) ← readShort? (← after? Byte.colon r)
  let (second, r) ← readShort? (← after? Byte.colon r)
  if hour < 24 && minute < 60 && decide (second < 60) then some (afterFraction r) else none

/-- Whether a text is a zone: the letter of universal time, or a sign and hours and minutes of two digits. -/
def isZone : Text → Bool
  | [90] => true
  | [sign, a, b, colon, c, d] =>
    (sign = Byte.plus || sign = Byte.minus) && colon = Byte.colon && [a, b, c, d].all Text.isDigit
      && decide (Text.toNat [a, b] ≤ 24) && decide (Text.toNat [c, d] ≤ 60)
  | _ => false

/-- Whether a text is a time: a date, a date and a time of day with a zone behind a letter, or one without a zone behind
spaces. -/
def isTimestamp (t : Text) : Bool :=
  match afterDate? t with
  | none => false
  | some [] => true
  | some (c :: r) =>
    if c = 84 || c = 116 then (afterTimeOfDay? r).any isZone
    else c = Byte.space && (afterTimeOfDay? (r.dropWhile (· = Byte.space)) = some [])

/-! ## Numbers -/

/-- An integer with a sign behind the mark of base two or eight. -/
def readSignedInBase? : Text → Option Int
  | Byte.zero :: mark :: sign :: d :: digits =>
    if (mark = 98 || mark = 111) && (sign = Byte.plus || sign = Byte.minus) then
      match Integer.readDigits (if mark = 98 then 2 else 8) 0 (d :: digits) with
      | .ok n => if sign = Byte.minus then if n ≤ Nat.pow 2 63 then some (-(n : Int)) else none
        else if n < Nat.pow 2 63 then some n else none
      | .error _ => none
    else none
  | _ => none

/-- An integer of 64 bits, with a sign or without one. -/
def readInteger? (t : Text) : Option Int :=
  match Integer.read t, Integer.readUnsigned t with
  | .ok n, _ => some n
  | .error _, .ok n => some (n : Int)
  | .error _, .error _ => readSignedInBase? t

/-- What a text that starts with a digit or a sign stands for. Underscores do not count in a number. -/
def meaningOfNumeral (times : Bool) (t : Text) : Meaning :=
  let plain := t.filter (· ≠ Byte.underscore)
  if times && isTimestamp t then .timestamp
  else match readInteger? plain, Decimal.read? plain with
    | some n, _ => .int n
    | none, some (negative, d) =>
      let x := Number.ofDecimal negative d
      if x.isFinite then .float x else .string t
    | none, none => .string t

/-- What a text stands for by itself; `times` says whether it can be a time. -/
def meaningOf (times : Bool) (t : Text) : Meaning :=
  match words.find? (utf8 ·.1 = t) with
  | some (_, m) => m
  | none =>
    match t with
    | [] => .null
    | c :: _ =>
      if Text.isDigit c || c = Byte.plus || c = Byte.minus then meaningOfNumeral times t
      else if c = Byte.dot then ((Number.ofLiteral? t).map .float).getD (.string t)
      else .string t

/-- The tag that a scalar gets without one of its own. -/
def tagOfText (plain : Bool) (t : Text) : Text :=
  if !plain then Kind.string.tag
  else if t = utf8 "<<" then Kind.merge.tag
  else (meaningOf true t).kind.tag

/-- The kinds that a text has to fit. -/
def checkedKinds : List Kind :=
  [.null, .bool, .int, .float, .timestamp]

/-- The number of an integer, if that has a sign bit to itself. -/
def floatOf? (n : Int) : Option Number :=
  if n < Nat.pow 2 63 then some (Number.ofDecimal (decide (n < 0)) ⟨n.natAbs, 0⟩) else none

/-- What a text stands for under a tag. One that does not fit its tag is a problem; an integer fits as a decimal number. -/
def meaning (tag : Text) (t : Text) : Except Problem Meaning :=
  match checkedKinds.find? (·.tag = tag) with
  | none => .ok (.string t)
  | some kind =>
    let m := meaningOf (kind = .timestamp) t
    let misfit : Problem := .general (utf8 "cannot decode " ++ m.kind.tag ++ utf8 " \x60" ++ t ++ utf8 "\x60 as a " ++ tag)
    if m.kind = kind then .ok m
    else match kind, m with
      | .float, .int n => match floatOf? n with
        | some x => .ok (.float x)
        | none => .error misfit
      | _, _ => .error misfit

end Jolt.Yaml
