/-
The tokens of YAML. Blocks have no brackets of their own; the beginning and the end
that indentation gives them are tokens like the brackets of flow collections.
-/
import Shorthand.Data.ReadFault
import Shorthand.Text.Basic

namespace Shorthand.Data.Yaml

/-- A line that begins with `%`. -/
inductive Directive where
  | version (major : Nat)
  | tagHandle (handle lead : Text)
  | other
  deriving DecidableEq, Repr

inductive Token where
  | directive (d : Directive)
  | documentStart
  | documentEnd
  | blockSequenceStart
  | blockMappingStart
  | blockEnd
  | flowSequenceStart
  | flowMappingStart
  | flowSequenceEnd
  | flowMappingEnd
  | blockEntry
  | flowEntry
  | key
  | value
  | alias (name : Text)
  | anchor (name : Text)
  /-- A tag: a shorthand with its handle, or a whole tag without one. -/
  | tag (handle : Option Text) (suffix : Text)
  | scalar (plain : Bool) (t : Text)
  /-- The place from which on a text has no tokens. -/
  | broken (why : ReadFault)
  deriving DecidableEq, Repr

/-- The characters that break a line. -/
def isBreak (c : Char) : Bool := ['\r', '\n', '\x85', '\u2028', '\u2029'].contains c

def isSpaceOrTab (c : Char) : Bool := c == ' ' || c == '\t'

/-- Whether a text is at its end or goes on with a line break. -/
def atBreak : Text → Bool
  | [] => true
  | c :: _ => isBreak c

/-- Whether a text is at its end or goes on with a blank. -/
def atBlank : Text → Bool
  | [] => true
  | c :: _ => isSpaceOrTab c || isBreak c

/-- The line break a text begins with, as it counts in a scalar, and what follows it. -/
def break? : Text → Option (Text × Text)
  | '\r' :: '\n' :: rest => some (['\n'], rest)
  | c :: rest =>
    if c = '\u2028' || c = '\u2029' then some ([c], rest)
    else if isBreak c then some (['\n'], rest)
    else none
  | [] => none

/-- Whether three characters that mark the bounds of a document stand here. -/
def atMarker (mark : Char) : Text → Bool
  | a :: b :: c :: rest => a == mark && b == mark && c == mark && atBlank rest
  | _ => false

/-- Whether a document begins or ends here. -/
def atDocumentMarker (t : Text) : Bool := atMarker '-' t || atMarker '.' t

/-- The rest of the line. -/
def afterLine (t : Text) : Text := t.dropWhile (!isBreak ·)

/-- The text after spaces and a comment up to the end of the line and its break; none
when something else is there. -/
def afterBlankLine? (t : Text) : Option Text :=
  let t := t.dropWhile (· == ' ')
  let t := match t with
    | '#' :: rest => afterLine rest
    | t => t
  match break? t with
  | some (_, rest) => some rest
  | none => if t.isEmpty then some t else none

/-- The characters of directive names, anchors and handles. -/
def isWordChar (c : Char) : Bool := Text.isAsciiAlphanumeric c || c == '-' || c == '_'

/-- Whether a character may stand in a YAML text at all. -/
def isAllowed (c : Char) : Bool :=
  let n := c.toNat
  n == 0x9 || n == 0xA || n == 0xD || (0x20 ≤ n && n ≤ 0x7E) || n == 0x85 ||
    (0xA0 ≤ n && n ≤ 0xD7FF) || (0xE000 ≤ n && n ≤ 0xFFFD) || 0x10000 ≤ n

end Shorthand.Data.Yaml
