/-
Addons: what a filter, or the dialect itself, adds to an expansion.
-/
import Shorthand.Data.Value

namespace Shorthand.Expansion

open Data

inductive Addon where
  /-- Class names are completed with the separators of elements and modifiers. -/
  | bem (element modifier : Value)
  /-- Important tags get a comment. -/
  | comment
  /-- List markers are trimmed. -/
  | trim
  /-- Attributes are written for embedded markup. -/
  | jsx

namespace Addon

def name : Addon → Text
  | bem _ _ => "bem".toList
  | comment => "c".toList
  | trim => "t".toList
  | jsx => "jsx".toList

/-- A preference, or the default when it is missing or counts as false. -/
def preference (preferences : Mapping) (key fallback : Text) : Value :=
  match preferences.get? (.text key) with
  | some v => if v.truthy then v else .text fallback
  | none => .text fallback

def bemElement : Text := "__".toList

def bemModifier : Text := "_".toList

/-- The addon of a filter, if the filter is registered. -/
def ofFilter? (preferences : Mapping) (filter : Text) : Option Addon :=
  if filter = "bem".toList then
    some (.bem (preference preferences "bem.elementSeparator".toList bemElement)
      (preference preferences "bem.modifierSeparator".toList bemModifier))
  else if filter = "c".toList then some .comment
  else if filter = "t".toList then some .trim
  else if filter = "jsx".toList then some .jsx
  else none

/-- The addons a dialect brings itself. -/
def ofDialect (dialect : Text) : List Text :=
  if dialect = "jsx".toList then ["jsx".toList] else []

/-- The addons of a request in order: those of the filters, then those of the dialect. A name
that is repeated keeps its first place and takes the last addon. -/
def build (dialect : Text) (filters : List Text) (preferences : Mapping) : List Addon :=
  let named := (filters ++ ofDialect dialect).filterMap fun filter =>
    (ofFilter? preferences filter).map (filter, ·)
  (Dict.ofList named).entries.map (·.2)

/-- The engine options that an addon turns on. -/
def engineEntries : Addon → List (Text × Value)
  | bem element modifier =>
    [("bem.enabled".toList, .bool true), ("bem.element".toList, element),
     ("bem.modifier".toList, modifier)]
  | comment => [("comment.enabled".toList, .bool true)]
  | trim => []
  | jsx => [("jsx.enabled".toList, .bool true)]

end Addon

end Shorthand.Expansion
