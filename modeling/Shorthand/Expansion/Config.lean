/-
The configuration of one expansion. Profiles and variables come in layers, later ones
over earlier ones: the defaults of the dialect, what was loaded from the extensions
directory, and what the request brings.
-/
import Shorthand.Expansion.Addon
import Shorthand.Expansion.Profile
import Shorthand.Expansion.TabStop
import Shorthand.Extensions.Snapshot

namespace Shorthand.Expansion

open Data

/-- The markup profile before any other layer. -/
def markupProfile : Mapping :=
  Dict.ofList
    [(.text "tagCase".toList, .text []), (.text "attributeCase".toList, .text []),
     (.text "attributeQuotes".toList, .text "double".toList),
     (.text "format".toList, .bool true), (.text "inlineBreak".toList, .int 3),
     (.text "selfClosingStyle".toList, .text "html".toList)]

/-- The styles in which dialects close tags without content, where it is not that of
the root. -/
def closingStyles : List (Text × Text) :=
  [("xhtml", "xhtml"), ("xml", "xml"), ("xsl", "xml"), ("jsx", "xhtml")].map
    fun (d, s) => (d.toList, s.toList)

/-- A dialect's departures from the markup profile. -/
def dialectProfile (dialect : Text) : Mapping :=
  match closingStyles.lookup dialect with
  | some style => Dict.ofList [(.text "selfClosingStyle".toList, .text style)]
  | none => {}

/-- The built-in profile of a dialect; stylesheets have none. -/
def defaultProfile (dialect : Text) : Mapping :=
  match Dialect.family dialect with
  | .markup => markupProfile.update (dialectProfile dialect)
  | .stylesheet => {}

/-- What a client asks for with a request: profiles by dialect, variables, filters and
preferences. -/
structure Request where
  profiles : Mapping
  vars : Mapping
  filters : List Text
  preferences : Mapping

/-- Everything the engine needs for one expansion. -/
structure Config where
  dialect : Text
  family : Dialect.Family
  profile : Mapping
  vars : Mapping
  addons : List Addon
  snippets : Option Extensions.Snippets

/-- The configuration as the engine takes it. `field` writes a tab stop from its index
and its placeholder. -/
structure EngineConfig where
  family : Dialect.Family
  dialect : Text
  options : Dict Text Value
  vars : Mapping
  snippets : Option Extensions.Snippets
  field : Text → Text → Text

namespace Config

/-- The filters a profile names: the trimmed pieces of a list with commas. -/
def profileFilters (profile : Mapping) : List Text :=
  match profile.get? (.text "filters".toList) with
  | some (.scalar (.text names)) =>
    ((Text.splitOn ',' names).map Text.trim).filter (!·.isEmpty)
  | _ => []

/-- The filters of a request: those that were typed, and those of the profile that were not. -/
def requestedFilters (typed : List Text) (profile : Mapping) : List Text :=
  typed ++ (profileFilters profile).filter (!typed.contains ·)

/-- The configuration of a request. A dialect that is not known gets a markup
configuration without snippets. -/
def assemble (dialect : Text) (request : Request) (snapshot : Extensions.Snapshot) :
    Except KeyFault Config := do
  let loaded ← Profile.normalize (snapshot.profile dialect)
  let requested ← Profile.normalize ((request.profiles.get? (.text dialect)).getD .null)
  let profile := ((defaultProfile dialect).update loaded).update requested
  return {
    dialect := dialect
    family := Dialect.family dialect
    profile := profile
    vars := (snapshot.resolveVariables dialect).update request.vars
    addons := Addon.build dialect (requestedFilters request.filters profile) request.preferences
    snippets := if Dialect.isKnown dialect then snapshot.resolveSnippets dialect else none }

/-- The dialects the engine has no profile for. -/
def foreignToEngine : List Text := ["vue".toList]

/-- The dialect passed to the engine: the root of the family for one it does not know. -/
def engineDialect (c : Config) : Text :=
  if Dialect.isKnown c.dialect && !foreignToEngine.contains c.dialect then c.dialect
  else c.family.root

def toEngineConfig (c : Config) : EngineConfig where
  family := c.family
  dialect := c.engineDialect
  options := Dict.ofList (Profile.engineEntries c.profile ++ c.addons.flatMap Addon.engineEntries)
  vars := c.vars
  snippets := c.snippets.filter (!·.isEmpty)
  field := TabStop.field

end Config

end Shorthand.Expansion
