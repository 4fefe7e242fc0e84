import Jolt.Diagnostic

/-!
# Failures

What goes wrong in a tool around the language: a diagnostic, a message of its own, or either of them in a context that
is named before it.
-/

namespace Jolt

/-- Why an action failed. -/
inductive Failure where
  | diagnostic (d : Diagnostic)
  | message (text : Text)
  | during (context : Text) (cause : Failure)
deriving DecidableEq

namespace Failure

/-- The text of a failure. -/
def text : Failure → Text
  | diagnostic d => d.render
  | message t => t
  | during context cause => context ++ utf8 ": " ++ cause.text

/-- The diagnostic at the bottom of a failure. -/
def diagnostic? : Failure → Option Diagnostic
  | diagnostic d => some d
  | message _ => none
  | during _ cause => cause.diagnostic?

/-- Whether a failure is about the form of a source. -/
def isSyntax (f : Failure) : Bool :=
  f.diagnostic?.any Diagnostic.isSyntax

end Failure

end Jolt
