/-
The engine that expands an abbreviation, as the rest of the library sees it.
-/
import Shorthand.Expansion.Config
import Shorthand.Expansion.Lorem

namespace Shorthand.Expansion

/-- An engine: the expansion of an abbreviation, or none when it cannot be expanded. -/
abbrev Engine := Text → EngineConfig → Option Text

namespace Config

/-- The abbreviation as it is handed to the engine. -/
def engineText (c : Config) (abbreviation : Text) : Text :=
  match c.family with
  | .markup => Lorem.wrap abbreviation
  | .stylesheet => abbreviation

/-- The expansion of an abbreviation, with tab stops as fields. -/
def expand (c : Config) (engine : Engine) (abbreviation : Text) : Option Text :=
  engine (c.engineText abbreviation) c.toEngineConfig

end Config

/-- What expands an abbreviation with a configuration: the expansion, or none when there
is no way to expand it. -/
abbrev Expander := Text → Config → Option Text

/-- The expander that hands every abbreviation to an engine. -/
def Engine.expander (engine : Engine) : Expander := fun abbreviation c => c.expand engine abbreviation

end Shorthand.Expansion
