/-
What a directory of extensions contributes: snippets, variables, profiles and parents
of dialects. A dialect sees its own entries over those of its ancestors.
-/
import Shorthand.Dialect.Inheritance
import Shorthand.Files.Path

namespace Shorthand.Extensions

open Data

/-- Snippets of one dialect by key. -/
abbrev Snippets := Dict Text Text

/-- Everything loaded from one directory. `snippets` is none when no directory is
configured, which is not the same as a directory without snippets. -/
structure Snapshot where
  generation : Nat
  path : Option Files.Path
  snippets : Option (Dict Scalar Snippets)
  parents : Dialect.Parents
  vars : Mapping
  dialectVars : Dict Scalar Mapping
  profiles : Mapping

namespace Snapshot

/-- The built-in defaults. -/
def builtin (generation : Nat) : Snapshot where
  generation := generation
  path := none
  snippets := none
  parents := {}
  vars := {}
  dialectVars := {}
  profiles := {}

/-- The dialect and its ancestors, the root first. -/
def lineage (s : Snapshot) (dialect : Text) : List Text :=
  (Dialect.chain dialect s.parents).reverse

/-- The sections of a lineage over `base`, nearer ones over farther ones. -/
def inherit {κ α : Type} [BEq κ] (sections : Dict Scalar (Dict κ α)) (base : Dict κ α)
    (lineage : List Text) : Dict κ α :=
  lineage.foldl (fun d dialect => d.update ((sections.get? (.text dialect)).getD {})) base

/-- The snippets a dialect sees. -/
def resolveSnippets (s : Snapshot) (dialect : Text) : Option Snippets :=
  s.snippets.map fun sections => inherit sections {} (s.lineage dialect)

/-- The variables a dialect sees: those of its chain over the global ones. -/
def resolveVariables (s : Snapshot) (dialect : Text) : Mapping :=
  inherit s.dialectVars s.vars (s.lineage dialect)

/-- The profile of a dialect, as it was loaded. -/
def profile (s : Snapshot) (dialect : Text) : Value :=
  (s.profiles.get? (.text dialect)).getD .null

end Snapshot

end Shorthand.Extensions
