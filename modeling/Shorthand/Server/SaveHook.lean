/-
What runs when a document was saved: hooks, one after the other in the order they were
added. One that fails is reported, and the others still run.
-/
import Shorthand.Failure

namespace Shorthand.Server

/-- A hook: what it does when the document of a URI was saved, and the name it is
reported by, where it has one. -/
structure SaveHook (σ : Type) where
  name : Option Text
  run : (uri : Text) → σ → Except Failure Unit × σ × Log

/-- A failure that ends a notification: that of a hook without a name. -/
structure Unreported where
  why : Failure
  deriving DecidableEq, Repr

namespace SaveHook

variable {σ : Type}

def report (name uri : Text) (why : Failure) : LogEntry :=
  ⟨.error, "Save hook ".toList ++ name ++ " failed for ".toList ++ uri ++ ": ".toList ++ why.toText⟩

/-- Runs one hook, and reports its failure under its name. -/
def notify (hook : SaveHook σ) (uri : Text) (s : σ) : Except Unreported Unit × σ × Log :=
  match hook.run uri s with
  | (.ok (), s, log) => (.ok (), s, log)
  | (.error why, s, log) => match hook.name with
    | some name => (.ok (), s, log ++ [report name uri why])
    | none => (.error ⟨why⟩, s, log)

/-- Runs hooks one after the other. The list stays the same while they run. A hook that adds another
one on the way, which would then be run as well, is left out. -/
def notifyAll (uri : Text) : List (SaveHook σ) → σ → Except Unreported Unit × σ × Log
  | [], s => (.ok (), s, [])
  | hook :: hooks, s => match hook.notify uri s with
    | (.error why, s, log) => (.error why, s, log)
    | (.ok (), s, log) =>
      let (result, s, more) := notifyAll uri hooks s
      (result, s, log ++ more)

end SaveHook

end Shorthand.Server
