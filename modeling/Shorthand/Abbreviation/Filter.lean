/-
Filters: names after an abbreviation, each behind a `|`. A backslash takes the next
character with it, so that `\|` is a literal bar; no other escape is resolved.
-/
import Shorthand.Text.Basic

namespace Shorthand.Abbreviation

open Text (isAsciiAlphanumeric)

/-- An abbreviation with its filters split off. -/
structure Filtered where
  abbreviation : Text
  filters : List Text
  deriving DecidableEq, Repr

/-- The text up to the first bar that is not escaped, with the backslash of each
escaped bar taken away, and what follows that bar if there is one. -/
def splitAtBar : Text → Text × Option Text
  | [] => ([], none)
  | '\\' :: c :: rest =>
    let (body, after) := splitAtBar rest
    (if c = '|' then c :: body else '\\' :: c :: body, after)
  | c :: rest =>
    if c = '|' then ([], some rest)
    else
      let (body, after) := splitAtBar rest
      (c :: body, after)

/-- The names that begin the groups of a filter suffix without its first bar. A group
that begins with anything but a letter or digit has none. -/
def filterNames (suffix : Text) : List Text :=
  ((Text.splitOn '|' suffix).map (·.takeWhile isAsciiAlphanumeric)).filter (!·.isEmpty)

/-- The abbreviation and the filters a text consists of, unless nothing is before
the filters. -/
def Filtered.ofText? (t : Text) : Option Filtered :=
  let (body, suffix) := splitAtBar (Text.trim t)
  let abbreviation := Text.trim body
  if abbreviation.isEmpty then none
  else some ⟨abbreviation, (suffix.map filterNames).getD []⟩

/-- The text with each backslash pair written as two underscores. Indices stay what
they are, and no backslash is left but one at the very end. -/
def maskEscapes : Text → Text
  | [] => []
  | '\\' :: _ :: rest => '_' :: '_' :: maskEscapes rest
  | c :: rest => c :: maskEscapes rest

/-- Whether a text is made of filter groups: bars, letters and digits, a bar first.
One line feed may end it. -/
def isFilterSuffix : Text → Bool
  | '|' :: rest =>
    let groups := if rest.getLast? == some '\n' then rest.dropLast else rest
    groups.all fun c => c == '|' || isAsciiAlphanumeric c
  | _ => false

/-- Where the longest filter suffix of a text without escapes begins: at its end when
there is none. -/
def filterSuffixStart : Text → Nat
  | [] => 0
  | c :: rest => if isFilterSuffix (c :: rest) then 0 else filterSuffixStart rest + 1

/-- The text before its trailing filter groups, and the groups. An escaped bar begins
no group. -/
def splitFilterSuffix (t : Text) : Text × Text :=
  t.splitAt (filterSuffixStart (maskEscapes t))

end Shorthand.Abbreviation
