/-
Failures as they are reported, and the log they are reported to. A failure here is one that
can be written: there is none of which the text itself could not be had.
-/
import Shorthand.Text.Class

namespace Shorthand

/-- A failure that can be reported: the word for its kind, and its text where it has one. -/
structure Failure where
  kind : Text
  message : Option Text
  deriving DecidableEq, Repr

/-- The kind, and the text behind a colon. -/
def Failure.toText (f : Failure) : Text :=
  match f.message with
  | none => f.kind
  | some message => f.kind ++ ": ".toList ++ message

inductive LogKind where
  | error | warning | info
  deriving DecidableEq, Repr

def LogKind.name : LogKind → Text
  | .error => "Error".toList
  | .warning => "Warning".toList
  | .info => "Info".toList

structure LogEntry where
  kind : LogKind
  message : Text
  deriving DecidableEq, Repr

abbrev Log := List LogEntry

end Shorthand
