import Jolt.Number.Integer
import Jolt.Text.Quoted

/-!
# Options

Arguments that start with a hyphen set options, up to the first that does not; two hyphens alone end them too. A value
follows its option after an equals sign or as the next argument, but a switch takes one only after an equals sign.
-/

namespace Jolt

/-- What an option takes. -/
inductive OptionKind where
  | switch
  | text
  | integer (default : Int)
deriving DecidableEq

/-- An option that can be set. -/
structure OptionSpec where
  name : String
  kind : OptionKind
  purpose : String

/-- What an option was set to. -/
inductive OptionValue where
  | switch (on : Bool)
  | text (t : Text)
  | integer (n : Int)

/-- Why arguments cannot be taken. -/
inductive OptionFlaw where
  /-- Help was asked for. -/
  | help
  | malformed (argument : Text)
  | unknown (name : Text)
  | noValue (name : Text)
  | badSwitch (name value : Text)
  | badInteger (name value : Text) (flaw : Integer.Flaw)
deriving DecidableEq

namespace OptionFlaw

/-- The text of a flaw. -/
def text : OptionFlaw → Text
  | help => utf8 "flag: help requested"
  | malformed argument => utf8 "bad flag syntax: " ++ argument
  | unknown name => utf8 "flag provided but not defined: -" ++ name
  | noValue name => utf8 "flag needs an argument: -" ++ name
  | badSwitch name value =>
    utf8 "invalid boolean value " ++ value.quoted ++ utf8 " for -" ++ name ++ utf8 ": parse error"
  | badInteger name value flaw =>
    utf8 "invalid value " ++ value.quoted ++ utf8 " for flag -" ++ name ++ utf8 ": "
      ++ (match flaw with
        | .malformed => utf8 "parse error"
        | .outOfRange => utf8 "value out of range")

end OptionFlaw

/-- Options that were set, the last one first, and the arguments after them. -/
structure Options where
  values : List (Text × OptionValue)
  operands : List Text

namespace Options

/-- Whether a switch is on. -/
def switch (o : Options) (name : String) : Bool :=
  match o.values.lookup (utf8 name) with
  | some (.switch on) => on
  | _ => false

/-- The text of an option, empty if it was not set. -/
def text (o : Options) (name : String) : Text :=
  match o.values.lookup (utf8 name) with
  | some (.text t) => t
  | _ => []

/-- The integer of an option. -/
def integer (o : Options) (name : String) (default : Int) : Int :=
  match o.values.lookup (utf8 name) with
  | some (.integer n) => n
  | _ => default

/-- What a single argument is. -/
inductive Argument where
  | operand
  | ending
  | malformed
  | option (name : Text) (value? : Option Text)

/-- Cuts an option at its first equals sign. -/
def cutValue (t : Text) : Text × Option Text :=
  match t.dropWhile (· ≠ Byte.equals) with
  | [] => (t, none)
  | _ :: value => (t.takeWhile (· ≠ Byte.equals), some value)

/-- What follows the hyphens of an option. -/
def ofBody (body : Text) : Argument :=
  match body with
  | [] => .malformed
  | c :: _ =>
    if c = Byte.minus || c = Byte.equals then .malformed
    else
      let (name, value?) := cutValue body
      .option name value?

/-- What an argument is. A single hyphen is an operand. -/
def classify : Text → Argument
  | [Byte.minus, Byte.minus] => .ending
  | Byte.minus :: Byte.minus :: body => ofBody body
  | Byte.minus :: c :: body => ofBody (c :: body)
  | _ => .operand

/-- The words for the two states of a switch. -/
def switchWords : List (String × Bool) :=
  [("1", true), ("t", true), ("T", true), ("TRUE", true), ("true", true), ("True", true), ("0", false), ("f", false),
    ("F", false), ("FALSE", false), ("false", false), ("False", false)]

/-- Reads the value of an option. -/
def readValue (kind : OptionKind) (name value : Text) : Except OptionFlaw OptionValue :=
  match kind with
  | .switch =>
    match switchWords.find? (utf8 ·.1 = value) with
    | some (_, on) => .ok (.switch on)
    | none => .error (.badSwitch name value)
  | .text => .ok (.text value)
  | .integer _ =>
    match Integer.read value with
    | .ok n => .ok (.integer n)
    | .error flaw => .error (.badInteger name value flaw)

/-- Reads arguments after options that have been set. -/
def readFrom (specs : List OptionSpec) (values : List (Text × OptionValue)) : List Text → Except OptionFlaw Options
  | [] => .ok ⟨values, []⟩
  | argument :: rest =>
    match classify argument with
    | .operand => .ok ⟨values, argument :: rest⟩
    | .ending => .ok ⟨values, rest⟩
    | .malformed => .error (.malformed argument)
    | .option name value? =>
      match specs.find? (utf8 ·.name = name) with
      | none => .error (if name = utf8 "help" || name = utf8 "h" then .help else .unknown name)
      | some spec =>
        match value?, decide (spec.kind = .switch), rest with
        | some value, _, rest => do
          let v ← readValue spec.kind name value
          readFrom specs ((name, v) :: values) rest
        | none, true, rest => readFrom specs ((name, .switch true) :: values) rest
        | none, false, value :: rest => do
          let v ← readValue spec.kind name value
          readFrom specs ((name, v) :: values) rest
        | none, false, [] => .error (.noValue name)
termination_by arguments => arguments.length

/-- Reads arguments. -/
def read (specs : List OptionSpec) (arguments : List Text) : Except OptionFlaw Options :=
  readFrom specs [] arguments

/-- What is said about one option: a switch of one letter stands on a line with its purpose. -/
def describe (spec : OptionSpec) : Text :=
  let (value, default) := match spec.kind with
    | .switch => ([], [])
    | .text => (utf8 " string", [])
    | .integer n => (utf8 " int", if n = 0 then [] else utf8 " (default " ++ Text.ofInt n ++ utf8 ")")
  let head := utf8 "  -" ++ utf8 spec.name ++ value
  head ++ utf8 (if head.length ≤ 4 then "\t" else "\n    \t") ++ utf8 spec.purpose ++ default ++ utf8 "\n"

/-- What is said about the options of a command. -/
def usage (command : Text) (specs : List OptionSpec) : Text :=
  utf8 "Usage of " ++ command ++ utf8 ":\n" ++ specs.flatMap describe

end Options

end Jolt
