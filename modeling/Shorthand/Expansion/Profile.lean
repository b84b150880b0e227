/-
Output profiles. A profile is written with the current option names or with the old
ones, which have underscores; old names are renamed and their values converted, and
every other entry passes through.
-/
import Shorthand.Data.Value

namespace Shorthand.Expansion

open Data

/-- Why a profile cannot be normalised: a key that is no text stands before the first
key with an underscore. -/
structure KeyFault where
  key : Scalar
  deriving DecidableEq, Repr

namespace Profile

/-- The old option names. -/
inductive OldName where
  | tagCase | attributeCase | attributeQuotes | tagLines | inlineBreak | selfClosing | compactBoolean
  deriving DecidableEq, Repr

namespace OldName

def all : List OldName :=
  [tagCase, attributeCase, attributeQuotes, tagLines, inlineBreak, selfClosing, compactBoolean]

/-- The name as a profile writes it. -/
def spelling : OldName → Text
  | tagCase => "tag_case".toList
  | attributeCase => "attr_case".toList
  | attributeQuotes => "attr_quotes".toList
  | tagLines => "tag_nl".toList
  | inlineBreak => "inline_break".toList
  | selfClosing => "self_closing_tag".toList
  | compactBoolean => "compact_bool".toList

/-- The current name of the option. -/
def current : OldName → Text
  | tagCase => "tagCase".toList
  | attributeCase => "attributeCase".toList
  | attributeQuotes => "attributeQuotes".toList
  | tagLines => "format".toList
  | inlineBreak => "inlineBreak".toList
  | selfClosing => "selfClosingStyle".toList
  | compactBoolean => "compactBooleanAttributes".toList

def ofSpelling? (t : Text) : Option OldName := all.find? (·.spelling == t)

end OldName

/-- A letter case: `lower`, `upper`, or blank for anything else. -/
def letterCase : Value → Value
  | .scalar (.text t) =>
    if t = "lower".toList || t = "upper".toList then .text t else .text []
  | _ => .text []

/-- Whether output is formatted: anything but a truth value leaves it on. -/
def formatting : Value → Value
  | .scalar (.bool b) => .bool b
  | _ => .bool true

/-- The style of tags without content; a truth value tells XML from HTML. -/
def closingStyle : Value → Value
  | .scalar (.bool true) => .text "xml".toList
  | .scalar (.bool false) => .text "html".toList
  | v => v

/-- The value of an option that was given by an old name. -/
def OldName.convert : OldName → Value → Value
  | tagCase | attributeCase => letterCase
  | tagLines => formatting
  | selfClosing => closingStyle
  | attributeQuotes | inlineBreak | compactBoolean => id

/-- Whether a key with an underscore is found before any key that is no text. -/
def usesOldNames : List (Scalar × Value) → Except KeyFault Bool
  | [] => .ok false
  | (.text k, _) :: rest => if k.contains '_' then .ok true else usesOldNames rest
  | (k, _) :: _ => .error ⟨k⟩

/-- An entry under the current name of its option. -/
def normalizeEntry : Scalar × Value → Scalar × Value
  | (.text k, v) => match OldName.ofSpelling? k with
    | some old => (.text old.current, old.convert v)
    | none => (.text k, v)
  | entry => entry

/-- The options of a profile by their current names; of two entries for one option the
later counts. The text `xhtml` is short for its closing style, and anything else that
is no mapping is no profile. -/
def normalize : Value → Except KeyFault Mapping
  | .scalar (.text t) =>
    .ok <| if t = "xhtml".toList then
      Dict.ofList [(.text "selfClosingStyle".toList, .text "xhtml".toList)] else {}
  | .mapping entries => do
    let entries := (Dict.ofList entries).entries
    if ← usesOldNames entries then return Dict.ofList (entries.map normalizeEntry)
    else return Dict.ofList entries
  | _ => .ok {}

/-- Current option names with the names the engine gives them. -/
def engineNames : List (Text × Text) :=
  [("tagCase", "output.tagCase"), ("attributeCase", "output.attributeCase"),
   ("attributeQuotes", "output.attributeQuotes"), ("format", "output.format"),
   ("inlineBreak", "output.inlineBreak"), ("selfClosingStyle", "output.selfClosingStyle"),
   ("compactBooleanAttributes", "output.compactBoolean")].map fun (a, b) => (a.toList, b.toList)

/-- The entries of a profile that the engine knows, under its names. -/
def engineEntries (profile : Mapping) : List (Text × Value) :=
  profile.entries.filterMap fun
    | (.text k, v) => (engineNames.lookup k).map (·, v)
    | _ => none

end Profile

end Shorthand.Expansion
