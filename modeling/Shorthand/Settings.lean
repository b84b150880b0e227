/-
The options a client sends. Keys that are not known are ignored, and a value of the
wrong type counts as missing.
-/
import Shorthand.Data.Value

namespace Shorthand

open Data

/-- When expansions are offered; `withInnerNode` also matches suggestions against the
last node of an abbreviation. -/
inductive ShowExpansion where
  | never
  | always
  | withInnerNode
  deriving DecidableEq, Repr

def ShowExpansion.name : ShowExpansion → Text
  | .never => "never".toList
  | .always => "always".toList
  | .withInnerNode => "withInnerNode".toList

structure Settings where
  showExpansion : ShowExpansion
  showSuggestions : Bool
  suggestionsAsSnippets : Bool
  profiles : Mapping
  vars : Mapping
  preferences : Mapping
  excludedLanguages : List Value
  includedLanguages : Mapping
  extensionsPath : Option Text
  useNewEngine : Bool

namespace Settings

def default : Settings where
  showExpansion := .always
  showSuggestions := true
  suggestionsAsSnippets := false
  profiles := {}
  vars := {}
  preferences := {}
  excludedLanguages := []
  includedLanguages := {}
  extensionsPath := none
  useNewEngine := true

def expansionEnabled (s : Settings) : Bool := s.showExpansion != .never

def matchInnerNode (s : Settings) : Bool := s.showExpansion == .withInnerNode

/-- The mode a value names; `false`, nothing and `off` are `never`, and what names no
mode is `always`. -/
def showExpansionOf : Value → ShowExpansion
  | .scalar (.bool false) | .scalar .null => .never
  | .scalar (.text t) =>
    if t = "off".toList || t = "never".toList then .never
    else if t = "withInnerNode".toList then .withInnerNode
    else .always
  | _ => .always

/-- The path a value names; of a list the first item counts. -/
def pathOf : Value → Option Text
  | .list (first :: _) => first.text?
  | v => v.text?

/-- The settings in a mapping, the default for each that is missing. -/
def ofMapping (data : Mapping) : Settings :=
  let get (key : String) : Option Value := data.get? (.text key.toList)
  let flag (key : String) (fallback : Bool) : Bool := ((get key).map (·.truthy)).getD fallback
  let mapping (key : String) : Mapping := ((get key).bind (·.mapping?)).getD {}
  { showExpansion := ((get "showExpandedAbbreviation").map showExpansionOf).getD .always
    showSuggestions := flag "showAbbreviationSuggestions" true
    suggestionsAsSnippets := flag "showSuggestionsAsSnippets" false
    profiles := mapping "syntaxProfiles"
    vars := mapping "variables"
    preferences := mapping "preferences"
    excludedLanguages := match get "excludeLanguages" with
      | some (.list items) => items
      | _ => []
    includedLanguages := mapping "includeLanguages"
    extensionsPath := (get "extensionsPath").bind pathOf
    useNewEngine := flag "useNewEmmet" true }

/-- The settings in any value: the defaults when it is no mapping. -/
def ofValue (data : Value) : Settings :=
  match data.mapping? with
  | some m => ofMapping m
  | none => default

end Settings

end Shorthand
