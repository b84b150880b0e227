/-
The texts of YAML scalars: plain ones, quoted ones and blocks. Where a scalar goes on
over several lines, a line break counts as a space unless blank lines follow it.
-/
import Shorthand.Data.Yaml.Token

namespace Shorthand.Data.Yaml

/-- What stands for a line break and the breaks after it. -/
def folded (first : Text) (others : List Text) : Text :=
  (if first != ['\n'] then first else if others.isEmpty then [' '] else []) ++ others.flatten

/-! ### Plain scalars -/

/-- What stands between two words of a plain scalar, and the text after it. -/
structure Gap where
  /-- The text the gap counts as; blank when there is no gap. -/
  text : Text
  /-- The column after the gap when it breaks the line. -/
  column : Option Nat
  /-- Whether the gap ends at a document marker. -/
  marker : Bool
  rest : Text

/-- Reads on over spaces and line breaks, `breaks` having been read and `column` spaces
since the last. -/
def gapLines (first : Text) (breaks : List Text) : (column : Nat) → Text → Gap
  | column, ' ' :: rest => gapLines first breaks (column + 1) rest
  | _, '\r' :: '\n' :: rest =>
    if atDocumentMarker rest then ⟨[], some 0, true, rest⟩
    else gapLines first (breaks ++ [['\n']]) 0 rest
  | column, c :: rest =>
    if isBreak c then
      if atDocumentMarker rest then ⟨[], some 0, true, rest⟩
      else
        let b := if c = '\u2028' || c = '\u2029' then c else '\n'
        gapLines first (breaks ++ [[b]]) 0 rest
    else ⟨folded first breaks, some column, false, c :: rest⟩
  | column, [] => ⟨folded first breaks, some column, false, []⟩

/-- The gap a text begins with. -/
def gap (t : Text) : Gap :=
  let spaces := t.takeWhile (· == ' ')
  match break? (t.drop spaces.length) with
  | none => ⟨spaces, none, false, t.drop spaces.length⟩
  | some (first, rest) =>
    if atDocumentMarker rest then ⟨[], some 0, true, rest⟩ else gapLines first [] 0 rest

/-- Whether a text begins with a character that ends a plain scalar in a flow collection
when a colon stands before it. -/
def atFlowIndicator : Text → Bool
  | [] => false
  | c :: _ => [',', '[', ']', '\x7b', '\x7d'].contains c

/-- The length of the word of a plain scalar that begins a text. -/
def plainWordLength (flow : Bool) : Text → Nat
  | [] => 0
  | c :: rest =>
    if isSpaceOrTab c || isBreak c then 0
    else if c = ':' && (atBlank rest || (flow && atFlowIndicator rest)) then 0
    else if flow && (atFlowIndicator [c] || c = '?') then 0
    else plainWordLength flow rest + 1

/-- A plain scalar: its text, what follows it, and whether that begins a line. -/
structure Plain where
  text : Text
  rest : Text
  atLineStart : Bool

/-- Reads the words of a plain scalar, `soFar` and then `pending` for a gap having been
read. Outside flow collections a line that is indented less ends it. -/
def plainWords (flow : Bool) (indent : Int) :
    (fuel : Nat) → (soFar pending : Text) → (atLineStart : Bool) → Text → Plain
  | 0, soFar, _, atLineStart, t => ⟨soFar, t, atLineStart⟩
  | fuel + 1, soFar, pending, atLineStart, t =>
    let n := if t.head? == some '#' then 0 else plainWordLength flow t
    if n = 0 then ⟨soFar, t, atLineStart⟩
    else
      let soFar := soFar ++ pending ++ t.take n
      let g := gap (t.drop n)
      let broke := g.column.isSome
      let outdented := !flow && match g.column with
        | some column => (column : Int) < indent
        | none => false
      if g.text.isEmpty || g.rest.head? == some '#' || outdented then ⟨soFar, g.rest, broke⟩
      else plainWords flow indent fuel soFar g.text broke g.rest

/-- The plain scalar that begins a text; it has `fuel` words at most. -/
def plain (flow : Bool) (indent : Int) (fuel : Nat) (t : Text) : Plain :=
  plainWords flow indent fuel [] [] false t

/-! ### Quoted scalars -/

/-- The line breaks of a quoted scalar after the first, with the blanks around them; none
at a document marker. -/
def quotedBreaks? : (fuel : Nat) → Text → Option (List Text × Text)
  | 0, _ => none
  | fuel + 1, t =>
    if atDocumentMarker t then none
    else
      let t := t.dropWhile isSpaceOrTab
      match break? t with
      | none => some ([], t)
      | some (b, rest) => (quotedBreaks? fuel rest).map fun (bs, rest) => (b :: bs, rest)

/-- The character a one-letter escape stands for. -/
def escapes : List (Char × Char) :=
  [('0', '\x00'), ('a', '\x07'), ('b', '\x08'), ('t', '\t'), ('\t', '\t'), ('n', '\n'),
   ('v', '\x0b'), ('f', '\x0c'), ('r', '\r'), ('e', '\x1b'), (' ', ' '), ('"', '"'),
   ('\\', '\\'), ('/', '/'), ('N', '\x85'), ('_', '\xa0'), ('L', '\u2028'), ('P', '\u2029')]

/-- The number of digits of an escape that gives a code point. -/
def escapeLengths : List (Char × Nat) := [('x', 2), ('u', 4), ('U', 8)]

/-- The character of a code point written with `count` hexadecimal digits. Half of a
surrogate pair is no character. -/
def codePoint (count : Nat) (t : Text) : Except ReadFault Char :=
  let digits := t.take count
  if digits.length = count && digits.all Text.isAsciiHexDigit then
    let n := digits.foldl (fun n c => n * 16 + Text.hexValue c) 0
    if 0x7FFFFFFF < n then .error (.obstacle .codePointTooLarge)
    else if 0x10FFFF < n then .error .malformed
    else .ok (if 0xD800 ≤ n && n < 0xE000 then '\uFFFD' else Char.ofNat n)
  else .error .malformed

/-- The text of an escape in double quotes after its backslash, and what follows it. -/
def escape : Text → Except ReadFault (Text × Text)
  | [] => .error .malformed
  | c :: rest =>
    match escapes.lookup c, escapeLengths.lookup c with
    | some e, _ => .ok ([e], rest)
    | none, some count => (codePoint count rest).map fun e => ([e], rest.drop count)
    | none, none => match break? (c :: rest) with
      | some (_, rest) => orMalformed <|
        (quotedBreaks? (rest.length + 1) rest).map fun (bs, rest) => (bs.flatten, rest)
      | none => .error .malformed

/-- The blanks of a quoted scalar that begin a text: what they count as, and what
follows them. -/
def quotedBlanks? (t : Text) : Option (Text × Text) :=
  let blanks := t.takeWhile isSpaceOrTab
  let t := t.drop blanks.length
  match t, break? t with
  | [], _ => none
  | _, none => some (blanks, t)
  | _, some (first, rest) =>
    (quotedBreaks? (rest.length + 1) rest).map fun (bs, rest) => (folded first bs, rest)

/-- The rest of a quoted scalar after its opening quote, and what follows it. -/
def quotedWithin (quote : Char) : (fuel : Nat) → Text → Except ReadFault (Text × Text)
  | 0, _ => .error .malformed
  | _, [] => .error .malformed
  | fuel + 1, c :: rest =>
    let goOn (piece rest : Text) : Except ReadFault (Text × Text) :=
      (quotedWithin quote fuel rest).map fun (t, after) => (piece ++ t, after)
    if isSpaceOrTab c || isBreak c then
      match quotedBlanks? (c :: rest) with
      | none => .error .malformed
      | some (piece, rest) => goOn piece rest
    else if c = quote then
      match quote, rest with
      | '\'', '\'' :: rest => goOn ['\''] rest
      | _, rest => .ok ([], rest)
    else if c = '\\' && quote == '"' then
      match escape rest with
      | .error why => .error why
      | .ok (piece, rest) => goOn piece rest
    else goOn [c] rest

/-- The text of a quoted scalar after its opening quote, and what follows it. -/
def quoted (quote : Char) (t : Text) : Except ReadFault (Text × Text) :=
  quotedWithin quote (t.length + 1) t

/-! ### Blocks -/

/-- What becomes of the line breaks at the end of a block. -/
inductive Chomping where
  | strip | clip | keep
  deriving DecidableEq, Repr

def chomping? : Char → Option Chomping
  | '+' => some .keep
  | '-' => some .strip
  | _ => none

/-- The indentation a header gives: a digit other than zero. -/
def increment? (c : Char) : Option Nat :=
  if Text.isAsciiDigit c then some (Text.hexValue c) else none

/-- The header of a block after its first character, and the text after the line of the
header. -/
def blockHeader? (t : Text) : Option (Chomping × Option Nat × Text) :=
  let (chomping, increment, rest) : Option Chomping × Option Nat × Text :=
    match t with
    | [] => (none, none, [])
    | c :: rest =>
      match chomping? c, increment? c with
      | some chomping, _ => match rest with
        | d :: more => match increment? d with
          | some n => (some chomping, some n, more)
          | none => (some chomping, none, rest)
        | [] => (some chomping, none, [])
      | none, some n => match rest with
        | d :: more => match chomping? d with
          | some chomping => (some chomping, some n, more)
          | none => (none, some n, rest)
        | [] => (none, some n, [])
      | none, none => (none, none, t)
  if increment == some 0 then none
  else if !(atBreak rest || rest.head? == some ' ') then none
  else (afterBlankLine? rest).map fun rest => (chomping.getD .clip, increment, rest)

/-- Blank lines before the text of a block: their breaks, the greatest indentation, the
column reached, and what follows. -/
def leadingLines (breaks : List Text) (most column : Nat) : Text → List Text × Nat × Nat × Text
  | ' ' :: rest => leadingLines breaks (max most (column + 1)) (column + 1) rest
  | '\r' :: '\n' :: rest => leadingLines (breaks ++ [['\n']]) most 0 rest
  | c :: rest =>
    if isBreak c then
      let b := if c = '\u2028' || c = '\u2029' then c else '\n'
      leadingLines (breaks ++ [[b]]) most 0 rest
    else (breaks, most, column, c :: rest)
  | [] => (breaks, most, column, [])

/-- Blank lines and the indentation of the line after them, of which at most `indent`
spaces are taken: the breaks, the column reached, and what follows. -/
def blockBreaks (indent : Nat) : (fuel : Nat) → Text → List Text × Nat × Text
  | 0, t => ([], 0, t)
  | fuel + 1, t =>
    let column := ((t.take indent).takeWhile (· == ' ')).length
    let t := t.drop column
    match break? t with
    | none => ([], column, t)
    | some (b, rest) =>
      let (bs, column, rest) := blockBreaks indent fuel rest
      (b :: bs, column, rest)

/-- Whether a line goes on without a leading blank. -/
def beginsTight : Text → Bool
  | [] => true
  | c :: _ => !isSpaceOrTab c

/-- The lines of a block: their text, the break that ends the last of them, the breaks
after it, and what follows. The line at the front has `indent` spaces before it. -/
def blockLines (fold : Bool) (indent : Nat) : (fuel : Nat) → Text → Text × Text × List Text × Text
  | 0, t => ([], [], [], t)
  | fuel + 1, t =>
    let line := t.takeWhile (!isBreak ·)
    let (ending, afterBreak) := (break? (t.drop line.length)).getD ([], [])
    let (breaks, column, rest) := blockBreaks indent (afterBreak.length + 1) afterBreak
    if column = indent && !rest.isEmpty then
      let joint :=
        if fold && ending == ['\n'] && beginsTight t && beginsTight rest then
          if breaks.isEmpty then [' '] else []
        else ending
      let (text, lastEnding, lastBreaks, rest) := blockLines fold indent fuel rest
      (line ++ joint ++ breaks.flatten ++ text, lastEnding, lastBreaks, rest)
    else (line, ending, breaks, rest)

/-- The text of a block after its first character, and what follows it; the block stands
in a collection that is indented by `parent`. -/
def block? (fold : Bool) (parent : Int) (t : Text) : Option (Text × Text) :=
  match blockHeader? t with
  | none => none
  | some (chomping, increment, t) =>
    let least := (max (parent + 1) 1).toNat
    let (indent, leading, column, rest) : Nat × List Text × Nat × Text :=
      match increment with
      | some n =>
        let indent := least + n - 1
        (indent, blockBreaks indent (t.length + 1) t)
      | none =>
        let (leading, most, column, rest) := leadingLines [] 0 0 t
        (max least most, leading, column, rest)
    let (text, ending, breaks, rest) : Text × Text × List Text × Text :=
      if column = indent && !rest.isEmpty then
        let (text, ending, breaks, rest) := blockLines fold indent (rest.length + 1) rest
        (leading.flatten ++ text, ending, breaks, rest)
      else ([], [], leading, rest)
    let tail := match chomping with
      | .strip => []
      | .clip => ending
      | .keep => ending ++ breaks.flatten
    some (text ++ tail, rest)

end Shorthand.Data.Yaml
