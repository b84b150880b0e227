/-
Cutting a YAML text into tokens.

Whether a scalar is the key of a mapping is known only when a colon follows it, so that
the scanner keeps where a key could have begun, one place for each open collection, and
puts the tokens of a key in there later. A key has to be on one line and not too long.
-/
import Shorthand.Data.Yaml.ScalarText

namespace Shorthand.Data.Yaml

/-- A place where a key may have begun. -/
structure KeyPlace where
  /-- The number of tokens before it. -/
  token : Nat
  /-- Whether nothing but a key can stand there. -/
  required : Bool
  index : Nat
  line : Nat
  column : Nat

/-- The state of a scan. -/
structure Scan where
  /-- The length of the whole text. -/
  size : Nat
  rest : Text
  index : Nat
  line : Nat
  column : Nat
  tokens : Array Token
  /-- The column of the innermost block, -1 outside all blocks. -/
  indent : Int
  /-- The columns of the blocks around it. -/
  outer : List Int
  /-- Whether a key may begin here. -/
  keyAllowed : Bool
  /-- The possible key of the innermost flow collection, and of each one around it; the
  last belongs to the blocks. -/
  places : List (Option KeyPlace)

namespace Scan

def init (t : Text) : Scan where
  size := t.length
  rest := t
  index := 0
  line := 0
  column := 0
  tokens := #[]
  indent := -1
  outer := []
  keyAllowed := true
  places := [none]

/-- Whether a flow collection is open. -/
def inFlow (s : Scan) : Bool := 1 < s.places.length

/-- The place after one character. -/
def step (s : Scan) : Scan :=
  match s.rest with
  | [] => s
  | c :: rest =>
    let breaks := c != '\r' && isBreak c || (c == '\r' && rest.head? != some '\n')
    { s with
      rest := rest
      index := s.index + 1
      line := if breaks then s.line + 1 else s.line
      column := if breaks then 0 else if c = '\uFEFF' then s.column else s.column + 1 }

def advance (s : Scan) : Nat → Scan
  | 0 => s
  | n + 1 => s.step.advance n

/-- The place where `rest` is what is left of the text. -/
def moveTo (s : Scan) (rest : Text) : Scan := s.advance (s.size - s.index - rest.length)

def push (s : Scan) (token : Token) : Scan := { s with tokens := s.tokens.push token }

/-- Reads one character as a token. -/
def pushOne (s : Scan) (token : Token) : Scan := s.step.push token

/-- Skips the characters at the front that have a property. -/
def skipWhile (s : Scan) (p : Char → Bool) : Scan := s.advance (s.rest.takeWhile p).length

/-- Skips spaces, comments and line breaks. Outside flow collections a key may begin
after a line break. -/
def skipBlanks : (fuel : Nat) → Scan → Scan
  | 0, s => s
  | fuel + 1, s =>
    let s := s.skipWhile (· == ' ')
    let s := if s.rest.head? == some '#' then s.skipWhile (!isBreak ·) else s
    match s.rest with
    | '\r' :: '\n' :: _ =>
      skipBlanks fuel { s.advance 2 with keyAllowed := s.keyAllowed || !s.inFlow }
    | c :: _ =>
      if isBreak c then skipBlanks fuel { s.step with keyAllowed := s.keyAllowed || !s.inFlow }
      else s
    | [] => s

/-- Forgets the possible keys that have become too long; none when one of them had to be
a key. -/
def dropStale (s : Scan) : Option Scan := do
  let places ← s.places.mapM fun
    | none => some none
    | some p =>
      if p.line = s.line && s.index - p.index ≤ 1024 then some (some p)
      else if p.required then none
      else some none
  return { s with places := places }

/-- Closes the blocks that are indented by more than `column`. Inside flow collections
indentation does not count. -/
def unwind (s : Scan) (column : Int) : Scan :=
  if s.inFlow then s else go s.outer s
where
  go : List Int → Scan → Scan
    | [], s => s
    | outer :: others, s =>
      if column < s.indent then
        go others { s.push .blockEnd with indent := outer, outer := others }
      else s

/-- Opens a block at a column, if it is indented more than the innermost one; says
whether it did. -/
def openBlock (s : Scan) (column : Int) : Scan × Bool :=
  if s.indent < column then ({ s with indent := column, outer := s.indent :: s.outer }, true)
  else (s, false)

/-- Gives up the possible key of the innermost collection; none when it had to be a key. -/
def dropPlace (s : Scan) : Option Scan :=
  match s.places with
  | some p :: others => if p.required then none else some { s with places := none :: others }
  | _ => some s

/-- Notes that a key may begin here. -/
def notePlace (s : Scan) : Option Scan :=
  if !s.keyAllowed then some s
  else do
    let s ← s.dropPlace
    let place : KeyPlace :=
      { token := s.tokens.size
        required := !s.inFlow && s.indent == s.column
        index := s.index
        line := s.line
        column := s.column }
    return { s with places := some place :: s.places.drop 1 }

/-- Reads what ends all blocks: a directive or a document marker. -/
def endBlocks (s : Scan) : Option Scan := do
  let s ← (s.unwind (-1)).dropPlace
  return { s with keyAllowed := false }

/-! ### Directives, anchors and tags -/

/-- The word that begins a text, if there is one, and what follows it. -/
def word? (t : Text) : Option (Text × Text) :=
  let word := t.takeWhile isWordChar
  if word.isEmpty then none else some (word, t.drop word.length)

/-- Bytes written as `%` and two digits, and what follows them. -/
def escapedBytes? : Text → Option (List UInt8 × Text)
  | '%' :: a :: b :: rest =>
    if Text.isAsciiHexDigit a && Text.isAsciiHexDigit b then
      (escapedBytes? rest).map fun (bytes, rest) =>
        ((Text.hexValue a * 16 + Text.hexValue b).toUInt8 :: bytes, rest)
    else none
  | '%' :: _ => none
  | t => some ([], t)

def isUriChar (c : Char) : Bool :=
  isWordChar c ||
    [';', '/', '?', ':', '@', '&', '=', '+', '$', ',', '.', '!', '~', '*', '\'', '(', ')',
     '[', ']'].contains c

/-- The URI that begins a text, and what follows it; `decode` reads escaped bytes. -/
def uriWithin? (decode : List UInt8 → Option Text) : (fuel : Nat) → Text → Option (Text × Text)
  | 0, t => some ([], t)
  | fuel + 1, t =>
    let piece := t.takeWhile isUriChar
    let after := t.drop piece.length
    if after.head? == some '%' then do
      let (bytes, rest) ← escapedBytes? after
      let chars ← decode bytes
      let (more, rest) ← uriWithin? decode fuel rest
      return (piece ++ chars ++ more, rest)
    else some (piece, after)

/-- A URI that is not blank. -/
def uri? (decode : List UInt8 → Option Text) (t : Text) : Option (Text × Text) :=
  (uriWithin? decode t.length t).filter fun (uri, rest) => !uri.isEmpty || rest.length < t.length

/-- The handle of a tag that begins a text: `!`, or a word between two of them. -/
def handle? : Text → Option (Text × Text)
  | '!' :: rest =>
    let word := rest.takeWhile isWordChar
    match rest.head?, rest.drop word.length with
    | some ' ', _ => some (['!'], rest)
    | _, '!' :: rest => some ('!' :: word ++ ['!'], rest)
    | _, _ => none
  | _ => none

/-- Whether a text is at its end, at a space or at a line break. -/
def atSpace (t : Text) : Bool := atBreak t || t.head? == some ' '

def natural (digits : Text) : Nat := digits.foldl (fun n c => n * 10 + Text.hexValue c) 0

/-- The digits that begin a text, if there are any and not too many. -/
def digits? (t : Text) : Option (Text × Text) :=
  let digits := t.takeWhile Text.isAsciiDigit
  if digits.isEmpty || Text.maxNumberLength < digits.length then none
  else some (digits, t.drop digits.length)

/-- A directive after its `%`, and the text after its line. -/
def directive? (decode : List UInt8 → Option Text) (t : Text) : Option (Directive × Text) := do
  let (name, rest) ← word? t
  if !atSpace rest then none
  let value := rest.dropWhile (· == ' ')
  if name = "YAML".toList then
    let (major, rest) ← digits? value
    match rest with
    | '.' :: rest =>
      let (_, rest) ← digits? rest
      if !atSpace rest then none
      return (.version (natural major), ← afterBlankLine? rest)
    | _ => none
  else if name = "TAG".toList then
    let (handle, rest) ← handle? value
    if rest.head? != some ' ' then none
    let (lead, rest) ← uri? decode (rest.dropWhile (· == ' '))
    if !atSpace rest then none
    return (.tagHandle handle lead, ← afterBlankLine? rest)
  else return (.other, ← afterBlankLine? (afterLine rest))

/-- Whether the name of an anchor may end here. -/
def endsAnchor : Text → Bool
  | [] => true
  | c :: rest => atBlank (c :: rest) ||
    ['?', ':', ',', ']', '\x7d', '%', '@', '\x60'].contains c

/-- The name of an anchor or an alias, and what follows it. -/
def anchorName? (t : Text) : Option (Text × Text) :=
  (word? t).filter fun (_, rest) => endsAnchor rest

/-- Whether a second `!` stands in a word before its end. -/
def hasHandle (t : Text) : Bool :=
  (t.takeWhile fun c => !(c == ' ' || isBreak c)).contains '!'

/-- A tag after its `!`, and what follows it. -/
def tag? (decode : List UInt8 → Option Text) (t : Text) : Option (Token × Text) := do
  let (token, rest) ← match t with
    | '<' :: rest =>
      match ← uri? decode rest with
      | (uri, '>' :: rest) => some (Token.tag none uri, rest)
      | _ => none
    | t =>
      if atBlank t then some (Token.tag none ['!'], t)
      else if hasHandle t then do
        let (handle, rest) ← handle? ('!' :: t)
        let (suffix, rest) ← uri? decode rest
        some (Token.tag (some handle) suffix, rest)
      else do
        let (suffix, rest) ← uri? decode t
        some (Token.tag (some ['!']) suffix, rest)
  if atSpace rest then some (token, rest) else none

/-! ### Tokens -/

/-- Reads a token that may be a key, or the beginning of one. -/
def readNode (s : Scan) (read : Text → Option (Token × Text)) : Option Scan := do
  let s ← s.notePlace
  let (token, rest) ← read s.rest
  return { s.moveTo rest with keyAllowed := false }.push token

def readPlain (fuel : Nat) (s : Scan) : Option Scan := do
  let s ← s.notePlace
  let p := plain s.inFlow (s.indent + 1) fuel s.rest
  return { s.moveTo p.rest with keyAllowed := p.atLineStart }.push (.scalar true p.text)

def readBlock (s : Scan) (fold : Bool) : Option Scan := do
  let s ← { s with keyAllowed := true }.dropPlace
  let (t, rest) ← block? fold s.indent (s.rest.drop 1)
  return (s.moveTo rest).push (.scalar false t)

def openFlow (s : Scan) (token : Token) : Option Scan := do
  let s ← s.notePlace
  return { s with keyAllowed := true, places := none :: s.places }.pushOne token

def closeFlow (s : Scan) (token : Token) : Option Scan := do
  let s ← s.dropPlace
  if s.inFlow then
    return { s with keyAllowed := false, places := s.places.drop 1 }.pushOne token
  else none

def readFlowEntry (s : Scan) : Option Scan := do
  let s ← { s with keyAllowed := true }.dropPlace
  return s.pushOne .flowEntry

/-- Opens a block that begins here with `token`, outside flow collections; none when no
entry may begin here. -/
def beginEntry (s : Scan) (token : Token) : Option Scan :=
  if s.inFlow then some s
  else if !s.keyAllowed then none
  else
    let (s, opened) := s.openBlock s.column
    some (if opened then s.push token else s)

def readBlockEntry (s : Scan) : Option Scan := do
  let s ← s.beginEntry .blockSequenceStart
  let s ← { s with keyAllowed := true }.dropPlace
  return s.pushOne .blockEntry

def readKey (s : Scan) : Option Scan := do
  let s ← s.beginEntry .blockMappingStart
  let s ← { s with keyAllowed := !s.inFlow }.dropPlace
  return s.pushOne .key

/-- Puts a token in at a place. -/
def insertAt (s : Scan) (place : Nat) (token : Token) : Scan :=
  { s with tokens := s.tokens.insertIdxIfInBounds place token }

def readValue (s : Scan) : Option Scan :=
  match s.places with
  | some p :: others =>
    let s := { s with places := none :: others }.insertAt p.token .key
    let (s, opened) := if s.inFlow then (s, false) else s.openBlock p.column
    let s := if opened then s.insertAt p.token .blockMappingStart else s
    some ({ s with keyAllowed := false }.pushOne .value)
  | _ => do
    let s ← s.beginEntry .blockMappingStart
    let s ← { s with keyAllowed := !s.inFlow }.dropPlace
    return s.pushOne .value

/-- Whether a plain scalar may begin with a text. -/
def beginsPlain (flow : Bool) : Text → Bool
  | [] => false
  | c :: rest =>
    !(isSpaceOrTab c || isBreak c ||
      ['-', '?', ':', ',', '[', ']', '\x7b', '\x7d', '#', '&', '*', '!', '|', '>', '\'', '"',
       '%', '@', '\x60'].contains c) ||
    (!atBlank rest && (c == '-' || (!flow && (c == '?' || c == ':'))))

/-- Reads the token at the front of `c :: rest`, which is what is left of the text and
begins no quoted scalar. -/
def readUnquoted (decode : List UInt8 → Option Text) (fuel : Nat) (s : Scan) (c : Char)
    (rest : Text) : Option Scan :=
  let t := c :: rest
  if c = '%' && s.column == 0 then do
    let s ← s.endBlocks
    let (d, rest) ← directive? decode rest
    return (s.moveTo rest).push (.directive d)
  else if atMarker '-' t && s.column == 0 then
    s.endBlocks.map fun s => (s.advance 3).push .documentStart
  else if atMarker '.' t && s.column == 0 then
    s.endBlocks.map fun s => (s.advance 3).push .documentEnd
  else if c = '[' then s.openFlow .flowSequenceStart
  else if c = '\x7b' then s.openFlow .flowMappingStart
  else if c = ']' then s.closeFlow .flowSequenceEnd
  else if c = '\x7d' then s.closeFlow .flowMappingEnd
  else if c = ',' then s.readFlowEntry
  else if c = '-' && atBlank rest then s.readBlockEntry
  else if c = '?' && (s.inFlow || atBlank rest) then s.readKey
  else if c = ':' && (s.inFlow || atBlank rest) then s.readValue
  else if c = '*' then
    s.readNode fun _ => (anchorName? rest).map fun (n, rest) => (.alias n, rest)
  else if c = '&' then
    s.readNode fun _ => (anchorName? rest).map fun (n, rest) => (.anchor n, rest)
  else if c = '!' then s.readNode fun _ => tag? decode rest
  else if (c = '|' || c = '>') && !s.inFlow then s.readBlock (c == '>')
  else if beginsPlain s.inFlow t then s.readPlain fuel
  else none

/-- Reads a quoted scalar after its opening quote. -/
def readQuoted (s : Scan) (quote : Char) (rest : Text) : Except ReadFault Scan := do
  let s ← orMalformed s.notePlace
  let (t, rest) ← quoted quote rest
  return { s.moveTo rest with keyAllowed := false }.push (.scalar false t)

/-- Reads the token at the front of `c :: rest`, which is what is left of the text. -/
def readToken (decode : List UInt8 → Option Text) (fuel : Nat) (s : Scan) (c : Char)
    (rest : Text) : Except ReadFault Scan :=
  if c = '\'' || c = '"' then s.readQuoted c rest
  else orMalformed (s.readUnquoted decode fuel c rest)

/-- The tokens before the first one that may still turn out to be a key, and a mark for
what keeps the scan from going on. Only so many are known for certain. -/
def brokenOff (s : Scan) (why : ReadFault) : List Token :=
  let places := (s.dropStale.getD s).places.filterMap id
  let certain := places.foldl (fun n p => min n p.token) s.tokens.size
  s.tokens.toList.take certain ++ [.broken why]

/-- Reads tokens to the end of the text, or up to a fault. Each takes at least one
character, so that the fuel also suffices for the words and lines of one. -/
def run (decode : List UInt8 → Option Text) : (fuel : Nat) → Scan → List Token
  | 0, s => s.brokenOff .malformed
  | fuel + 1, s =>
    match (s.skipBlanks (fuel + 1)).dropStale with
    | none => s.brokenOff .malformed
    | some next =>
      let next := next.unwind next.column
      match next.rest with
      | [] => match (next.unwind (-1)).dropPlace with
        | none => s.brokenOff .malformed
        | some next => next.tokens.toList
      | c :: rest => match next.readToken decode (fuel + 1) c rest with
        | .error why => s.brokenOff why
        | .ok next => run decode fuel next

end Scan

/-- The tokens of a text; `decode` reads the escaped bytes of tags. -/
def tokens (decode : List UInt8 → Option Text) (t : Text) : List Token :=
  Scan.run decode (t.length + 2) (.init t)

end Shorthand.Data.Yaml
