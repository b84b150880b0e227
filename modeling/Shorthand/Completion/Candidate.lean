/-
The completion candidates at a position: the expansion of the abbreviation before the
cursor, then the snippets whose keys begin with what was typed.
-/
import Shorthand.Abbreviation.Extract
import Shorthand.Completion.Noise
import Shorthand.Expansion.Engine
import Shorthand.Settings

namespace Shorthand.Completion

open Abbreviation Expansion

/-- One completion: `insertText` is a snippet, `documentation` its preview. The rank 0
is that of the typed abbreviation itself. -/
structure Candidate where
  label : Text
  documentation : Text
  insertText : Text
  rank : Nat
  range : Range
  filterText : Option Text
  deriving DecidableEq, Repr

/-- What a candidate is, in words. -/
def detail : Text := "Emmet Abbreviation".toList

/-- Why there is no answer to a request. -/
inductive Fault where
  | unreadableCount (why : UnreadableCount)
  | profileKey (why : KeyFault)
  deriving DecidableEq, Repr

/-- What is inserted for an expansion. In stylesheets a dollar sign may belong to a
variable and is escaped. -/
def insertText (family : Dialect.Family) (expanded : Text) : Text :=
  match family with
  | .stylesheet => TabStop.escapeDollars expanded
  | .markup => expanded

/-- The abbreviation at a position with the configuration to expand it. -/
structure Target where
  extracted : Extracted
  config : Config

/-- The request that settings make for an abbreviation with filters. -/
def request (settings : Settings) (filters : List Text) : Request where
  profiles := settings.profiles
  vars := settings.vars
  filters := filters
  preferences := settings.preferences

/-- What is to be expanded at a position. -/
def target (scan : Scanner) (document : Document) (position : Position) (dialect : Text)
    (settings : Settings) (snapshot : Extensions.Snapshot) : Except Fault (Option Target) :=
  match extract scan document position dialect with
  | .error why => .error (.unreadableCount why)
  | .ok none => .ok none
  | .ok (some extracted) =>
    match Config.assemble dialect (request settings extracted.filters) snapshot with
    | .error why => .error (.profileKey why)
    | .ok config => .ok (some ⟨extracted, config⟩)

/-- The text before the cursor on its line. -/
def lineBefore (document : Document) (position : Position) : Text :=
  match (Text.lines document.text)[position.line]? with
  | none => []
  | some line => line.take (Text.indexOfColumn line position.column)

/-- Whether the abbreviation is the name of a tag being opened, as in `<div`. -/
def opensTag (before abbreviation : Text) : Bool :=
  ('<' :: abbreviation).isSuffixOf before

/-- What the name of a node is made of. -/
def isNodeChar (c : Char) : Bool := Text.isWordChar c || c == ':' || c == '-'

/-- The last node of an abbreviation that ends in `>name` or `+name`. -/
def innerNode? (abbreviation : Text) : Option Text :=
  let reversed := abbreviation.reverse
  match reversed.dropWhile isNodeChar with
  | c :: _ =>
    let name := (reversed.takeWhile isNodeChar).reverse
    if (c = '>' || c = '+') && !name.isEmpty then some name else none
  | [] => none

/-- The part of an abbreviation that suggested keys begin with. -/
def typedPart (settings : Settings) (abbreviation : Text) : Text :=
  if settings.matchInnerNode then (innerNode? abbreviation).getD abbreviation else abbreviation

/-- Shorter keys first, and keys of one length by code points. -/
def keyBefore (a b : Text) : Bool :=
  a.length < b.length || (a.length == b.length && !Text.before b a)

/-- The keys that can be suggested: those of custom snippets and, for markup, the
built-in ones. -/
def suggestionKeys (c : Config) : List Text :=
  let custom := (c.snippets.map (·.keys)).getD []
  let builtin := match c.family with
    | .markup => markupSnippetKeys ++ commonTags
    | .stylesheet => []
  (custom ++ builtin).eraseDups.mergeSort keyBefore

/-- The label of the suggestion of a key: the abbreviation with its typed part
completed to the key. There is none when the key does not go on from that part. -/
def suggestionLabel? (abbreviation typed key : Text) : Option Text :=
  match Text.after? typed key with
  | none => none
  | some [] => none
  | some more => some (abbreviation ++ more)

/-- The labels of the keys in order, without those already `seen`. -/
def distinctLabels (abbreviation typed : Text) : (seen keys : List Text) → List Text
  | _, [] => []
  | seen, key :: keys =>
    match suggestionLabel? abbreviation typed key with
    | none => distinctLabels abbreviation typed seen keys
    | some label =>
      if seen.contains label then distinctLabels abbreviation typed seen keys
      else label :: distinctLabels abbreviation typed (label :: seen) keys

/-- The labels of the suggestions for a target. -/
def suggestionLabels (settings : Settings) (t : Target) : List Text :=
  let abbreviation := t.extracted.abbreviation
  if settings.showSuggestions then
    distinctLabels abbreviation (typedPart settings abbreviation) [abbreviation]
      (suggestionKeys t.config)
  else []

/-- The expansion of an abbreviation, unless it is empty. -/
def expansion? (expander : Expander) (c : Config) (abbreviation : Text) : Option Text :=
  (expander abbreviation c).filter (!·.isEmpty)

def candidate (t : Target) (label expanded : Text) (rank : Nat) (filterText : Option Text) :
    Candidate where
  label := label
  documentation := TabStop.toCursors expanded
  insertText := insertText t.config.family expanded
  rank := rank
  range := t.extracted.range
  filterText := filterText

/-- The abbreviation with its filters as they are typed. -/
def typedLabel (e : Extracted) : Text := Text.joinWith ['|'] (e.abbreviation :: e.filters)

/-- The candidate made from the typed abbreviation, unless it expands to nothing or to
noise. -/
def ownCandidate (expander : Expander) (t : Target) : Option Candidate :=
  let abbreviation := t.extracted.abbreviation
  match expansion? expander t.config abbreviation with
  | none => none
  | some expanded =>
    if isNoise t.config abbreviation expanded then none
    else match t.config.family with
      | .stylesheet => some (candidate t (TabStop.remove expanded) expanded 0 (some abbreviation))
      | .markup => some (candidate t (typedLabel t.extracted) expanded 0 none)

/-- The candidates of the labels that expand to something, ranked from `rank` on. -/
def suggestions (expander : Expander) (t : Target) : (rank : Nat) → (labels : List Text) → List Candidate
  | _, [] => []
  | rank, label :: labels =>
    match expansion? expander t.config label with
    | none => suggestions expander t rank labels
    | some expanded =>
      let filterText := match t.config.family with
        | .stylesheet => some label
        | .markup => none
      candidate t label expanded rank filterText :: suggestions expander t (rank + 1) labels

/-- The target of a completion: none when expansion is switched off, when nothing is to
be expanded, and when the abbreviation is the name of a tag being opened. -/
def completionTarget (scan : Scanner) (document : Document) (position : Position)
    (dialect : Text) (settings : Settings) (snapshot : Extensions.Snapshot) :
    Except Fault (Option Target) :=
  if !settings.expansionEnabled then .ok none
  else match target scan document position dialect settings snapshot with
    | .error fault => .error fault
    | .ok none => .ok none
    | .ok (some t) =>
      if t.config.family = .markup &&
          opensTag (lineBefore document position) t.extracted.abbreviation then .ok none
      else .ok (some t)

/-- The candidates for a target. -/
def candidates (expander : Expander) (settings : Settings) (t : Target) : List Candidate :=
  (ownCandidate expander t).toList ++ suggestions expander t 1 (suggestionLabels settings t)

/-- The abbreviations that are handed to the engine for a target, in order. -/
def engineTexts (settings : Settings) (t : Target) : List Text :=
  (t.extracted.abbreviation :: suggestionLabels settings t).map t.config.engineText

/-- The ranked candidates at a position. -/
def complete (scan : Scanner) (expander : Expander) (document : Document) (position : Position)
    (dialect : Text) (settings : Settings) (snapshot : Extensions.Snapshot) :
    Except Fault (List Candidate) :=
  match completionTarget scan document position dialect settings snapshot with
  | .error fault => .error fault
  | .ok none => .ok []
  | .ok (some t) => .ok (candidates expander settings t)

end Shorthand.Completion
