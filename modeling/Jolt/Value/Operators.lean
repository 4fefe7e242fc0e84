import Jolt.Number.Arithmetic
import Jolt.Number.Numeric
import Jolt.Value

/-!
# Operators on values

An operator is known by its text. One that is not among those of the language gives undefined.
-/

namespace Jolt.Value

/-- The four operations on numbers. -/
def arithmetic (operator : Text) (x y : Number) : Value :=
  if operator = utf8 "+" then number (x.add y)
  else if operator = utf8 "-" then number (x.sub y)
  else if operator = utf8 "*" then number (x.mul y)
  else if operator = utf8 "/" then number (x.div y)
  else undefined

/-- Strings and numbers can be joined to a text. -/
def isTextual : Value → Bool
  | string _ | number _ => true
  | _ => false

/-- Numbers are computed with. A string joins with a string or a number under `+`. Nothing else is defined. -/
def binary (operator : Text) (a b : Value) : Value :=
  match a, b with
  | number x, number y => arithmetic operator x y
  | a, b => if operator = utf8 "+" && a.isTextual && b.isTextual then string (a.text ++ b.text) else undefined

theorem binary_ne_absent (operator : Text) (a b : Value) : binary operator a b ≠ .absent := by
  unfold binary arithmetic
  repeat' split
  all_goals simp

/-- A value as a number: true is one, a string is read, and undefined is not-a-number. -/
def toNumber : Value → Number
  | number x => x
  | boolean b => .ofBool b
  | string s => .ofText s
  | undefined | absent => .nan

/-- The order: strings by their bytes, everything else as numbers. -/
def less : Value → Value → Bool
  | string s, string t => s < t
  | a, b => a.toNumber.lt b.toNumber

/-- The same order, seen from above. -/
def greater : Value → Value → Bool
  | string s, string t => t < s
  | a, b => b.toNumber.lt a.toNumber

/-- Equality: undefined equals only itself, values of different types are equal as numbers. -/
def looselyEqual : Value → Value → Bool
  | undefined, b => b = undefined
  | _, undefined => false
  | string s, string t => s = t
  | boolean p, boolean q => p = q
  | a, b => a.toNumber.eq b.toNumber

/-- The three comparisons. -/
def compare (operator : Text) (a b : Value) : Value :=
  if operator = utf8 "<" then boolean (less a b)
  else if operator = utf8 ">" then boolean (greater a b)
  else if operator = utf8 "==" then boolean (looselyEqual a b)
  else undefined

theorem compare_ne_absent (operator : Text) (a b : Value) : compare operator a b ≠ .absent := by
  unfold compare
  repeat' split
  all_goals simp

end Jolt.Value
