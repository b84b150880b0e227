/-
The abbreviation before the cursor: found on the cursor's line by a backward scan,
split from its filters, and checked against the grammar of the dialect.
-/
import Shorthand.Abbreviation.Filter
import Shorthand.Abbreviation.Scan
import Shorthand.Abbreviation.Valid
import Shorthand.Dialect.LanguageId
import Shorthand.Text.Lines
import Shorthand.Text.Utf16

namespace Shorthand

/-- A place in a document: a line, and a column counted in UTF-16 units. -/
structure Position where
  line : Nat
  column : Nat
  deriving DecidableEq, Repr

/-- The greatest line and the greatest column. -/
def Position.most : Int := 2147483647

/-- The position with the given line and column, refused when one of them is negative
or too large. -/
def Position.ofInts? (line column : Int) : Option Position :=
  if 0 ≤ line ∧ line ≤ most ∧ 0 ≤ column ∧ column ≤ most then
    some ⟨line.toNat, column.toNat⟩
  else none

structure Range where
  start : Position
  stop : Position
  deriving DecidableEq, Repr

/-- A document as the editor shows it. -/
structure Document where
  uri : Text
  languageId : Option Text
  text : Text
  deriving DecidableEq, Repr

namespace Abbreviation

/-- A backward scan: where the abbreviation of a family that ends a text begins. -/
abbrev Scanner := Dialect.Family → Text → Option Nat

/-- An abbreviation found in a document, and the range it takes there. -/
structure Extracted where
  abbreviation : Text
  filters : List Text
  range : Range
  deriving DecidableEq, Repr

/-- Where the abbreviation that ends at `stop` begins. The scan runs over the text
before the filters, with escapes masked so that it steps over them. -/
def start? (scan : Scanner) (family : Dialect.Family) (line : Text) (stop : Int) : Option Nat :=
  scan family (maskEscapes (splitFilterSuffix (Text.upTo line stop)).1)

/-- The dialect of a document's language, or the root of markup. -/
def documentDialect (document : Document) : Text :=
  ((document.languageId.getD []) |> Dialect.ofLanguageId).getD Dialect.Family.markup.root

/-- The abbreviation before a column of a line, with the index where it begins. -/
def extractFromLine (scan : Scanner) (dialect line : Text) (column : Nat) :
    Except UnreadableCount (Option (Nat × Filtered)) :=
  let stop := Text.indexOfColumn line column
  match start? scan (Dialect.family dialect) line stop with
  | none => .ok none
  | some start =>
    if stop ≤ start then .ok none
    else match Filtered.ofText? ((line.take stop).drop start) with
      | none => .ok none
      | some found => do
        let valid ← isValid (some dialect) (some found.abbreviation)
        return if valid then some (start, found) else none

/-- The abbreviation that ends at a position. The range ends at the column that was
asked for, also when that is past the end of the line. -/
def extract (scan : Scanner) (document : Document) (position : Position) (dialect : Text) :
    Except UnreadableCount (Option Extracted) :=
  match (Text.lines document.text)[position.line]? with
  | none => .ok none
  | some line =>
    let line := Text.withoutTerminator line
    (extractFromLine scan dialect line position.column).map <| Option.map fun (start, found) =>
      { abbreviation := found.abbreviation
        filters := found.filters
        range := ⟨⟨position.line, Text.columnOfIndex line start⟩, position⟩ }

end Abbreviation

end Shorthand
