/-
Candidates as a client shows them: items, sorted by the texts that rank them.
-/
import Shorthand.Completion.Candidate

namespace Shorthand.Server

open Completion

/-- An edit: a text in the place of a range. -/
structure Edit where
  range : Range
  newText : Text
  deriving DecidableEq, Repr

inductive ItemKind where
  | text | snippet
  deriving DecidableEq, Repr

def ItemKind.name : ItemKind → Text
  | .text => "Text".toList
  | .snippet => "Snippet".toList

/-- A completion item. Its edit inserts a snippet. -/
structure Item where
  label : Text
  kind : ItemKind
  detail : Text
  documentation : Text
  edit : Edit
  sortText : Text
  filterText : Option Text
  deriving DecidableEq, Repr

/-- The text a client sorts an item by: four digits of its rank, then its label. -/
def sortText (c : Candidate) : Text := Text.padded 4 c.rank ++ c.label

/-- The edit that takes a candidate over. -/
def editOf (c : Candidate) : Edit := ⟨c.range, c.insertText⟩

def Item.ofCandidate (settings : Settings) (c : Candidate) : Item where
  label := c.label
  kind := if settings.suggestionsAsSnippets then .snippet else .text
  detail := Completion.detail
  documentation := c.documentation
  edit := editOf c
  sortText := Server.sortText c
  filterText := c.filterText

/-- What a client gets for completion. It asks again after the next key when the list is
incomplete. -/
structure Completions where
  incomplete : Bool
  items : List Item
  deriving DecidableEq, Repr

end Shorthand.Server
