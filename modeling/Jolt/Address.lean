import Jolt.Number.Decimal

/-!
# Addresses

An address to listen on is a host and a number with a colon between them. A host with colons of its own stands in
brackets.
-/

namespace Jolt.Address

/-- Why an address cannot be listened on. The part that is meant is named. -/
inductive Flaw where
  | missingNumber (address : Text)
  | tooManyColons (address : Text)
  | missingBracket (address : Text)
  | unexpectedOpening (address : Text)
  | unexpectedClosing (address : Text)
  | invalidNumber (number : Text)
  | unknownNumber (number : Text)
deriving DecidableEq

/-- The text of a flaw. -/
def Flaw.text : Flaw → Text
  | missingNumber a => utf8 "address " ++ a ++ utf8 ": missing port in address"
  | tooManyColons a => utf8 "address " ++ a ++ utf8 ": too many colons in address"
  | missingBracket a => utf8 "address " ++ a ++ utf8 ": missing ']' in address"
  | unexpectedOpening a => utf8 "address " ++ a ++ utf8 ": unexpected '[' in address"
  | unexpectedClosing a => utf8 "address " ++ a ++ utf8 ": unexpected ']' in address"
  | invalidNumber n => utf8 "address " ++ n ++ utf8 ": invalid port"
  | unknownNumber n => utf8 "lookup tcp/" ++ n ++ utf8 ": unknown port"

/-- An opening bracket. -/
def opening : UInt8 := 91

/-- A closing bracket. -/
def closing : UInt8 := 93

/-- The parts of a text around the last colon. -/
def atLastColon? (t : Text) : Option (Text × Text) :=
  match t.reverse.dropWhile (· ≠ Byte.colon) with
  | [] => none
  | _ :: before => some (before.reverse, t.drop (before.length + 1))

/-- The flaw of a bracketed host, with the address, what is before its last colon and what follows its opening
bracket. -/
def hostFlaw? (address before inside : Text) : Option Flaw :=
  match inside.dropWhile (· ≠ closing) with
  | [] => some (.missingBracket address)
  | _ :: after =>
    let host := inside.takeWhile (· ≠ closing)
    if after.isEmpty then some (.missingNumber address)
    else if host.length + 2 = before.length then
      if host.contains opening || (after.contains opening) then some (.unexpectedOpening address)
      else if after.contains closing then some (.unexpectedClosing address)
      else none
    else if after.head? = some Byte.colon then some (.tooManyColons address)
    else some (.missingNumber address)

/-- The flaw of the number. It has to fit in sixteen bits; nothing at all means any number. -/
def numberFlaw? (number : Text) : Option Flaw :=
  let (negative, digits) := number.signed
  if !digits.all Text.isDigit then some (.unknownNumber number)
  else if 65535 < digits.toNat || (negative && digits.toNat ≠ 0) then some (.invalidNumber number)
  else none

/-- Why an address cannot be listened on, if so. -/
def flaw? (address : Text) : Option Flaw :=
  match atLastColon? address with
  | none => some (.missingNumber address)
  | some (before, number) =>
    match address with
    | [] => none
    | c :: inside =>
      if c = opening then hostFlaw? address before inside <|> numberFlaw? number
      else if before.contains Byte.colon then some (.tooManyColons address)
      else if address.contains opening then some (.unexpectedOpening address)
      else if address.contains closing then some (.unexpectedClosing address)
      else numberFlaw? number

end Jolt.Address
