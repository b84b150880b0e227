/-
The parts of a URI that name a file.
-/
import Shorthand.Files.Authority
import Shorthand.Files.Path
import Shorthand.Text.Utf8

namespace Shorthand.Files

/-- A URI without its query and its fragment; nothing in it is decoded. -/
structure Uri where
  scheme : Text
  authority : Text
  path : Text
  deriving DecidableEq, Repr

namespace Uri

/-- The text with each byte that is written as `%` and two digits put in its place.
Bytes next to each other are read as UTF-8. -/
def percentDecodeAfter (bytes : Text.Bytes) : Text → Text
  | [] => Text.ofUtf8Lenient bytes.reverse
  | '%' :: a :: b :: rest =>
    if Text.isAsciiHexDigit a && Text.isAsciiHexDigit b then
      percentDecodeAfter ((Text.hexValue a * 16 + Text.hexValue b).toUInt8 :: bytes) rest
    else percentDecodeAfter (0x25 :: bytes) (a :: b :: rest)
  | c :: rest =>
    if c.toNat < 0x80 then percentDecodeAfter (c.toNat.toUInt8 :: bytes) rest
    else Text.ofUtf8Lenient bytes.reverse ++ c :: percentDecodeAfter [] rest
termination_by t => t.length
decreasing_by all_goals simp; try omega

def percentDecode (t : Text) : Text := percentDecodeAfter [] t

/-- A text without the control characters and spaces it begins with, and without tabs
and line breaks. -/
def clean (t : Text) : Text :=
  (t.dropWhile fun c => c.toNat ≤ 0x20).filter fun c => c != '\t' && c != '\r' && c != '\n'

def isSchemeChar (c : Char) : Bool :=
  Text.isAsciiAlphanumeric c || c == '+' || c == '-' || c == '.'

/-- The scheme in lower case, blank when there is none, and what follows it. -/
def splitScheme (t : Text) : Text × Text :=
  let scheme := t.takeWhile isSchemeChar
  match scheme, t.drop scheme.length with
  | c :: _, ':' :: rest =>
    if Text.isAsciiLetter c then (scheme.map Char.toLower, rest) else ([], t)
  | _, _ => ([], t)

/-- The authority, blank when there is none, and what follows it. -/
def splitAuthority : Text → Text × Text
  | '/' :: '/' :: rest => rest.span fun c => c != '/' && c != '?' && c != '#'
  | t => ([], t)

/-- The schemes whose last segment may have parameters behind a `;`. -/
def withParameters : List Text :=
  ["", "ftp", "hdl", "prospero", "http", "imap", "https", "shttp", "rtsp", "rtspu", "sip",
   "sips", "mms", "sftp", "tel"].map String.toList

/-- A path without the parameters of its last segment. -/
def withoutParameters (path : Text) : Text :=
  let last := (path.reverse.takeWhile (· != '/')).reverse
  path.take (path.length - last.length) ++ last.takeWhile (· != ';')

/-- The parts of a URI. -/
def ofText (t : Text) : Except InvalidUri Uri :=
  let (scheme, rest) := splitScheme (clean t)
  let (authority, rest) := splitAuthority rest
  match Authority.fault? authority with
  | some why => .error why
  | none =>
    let path := (rest.takeWhile (· != '#')).takeWhile (· != '?')
    .ok
      { scheme := scheme
        authority := authority
        path := if withParameters.contains scheme then withoutParameters path else path }

/-- The text of the path of a file: the decoded path, with the authority before it as a
share when there are both. Other schemes name no file. -/
def filePath? (u : Uri) : Option Text :=
  if u.scheme != "file".toList then none
  else
    let authority := percentDecode u.authority
    let path := percentDecode u.path
    if authority.isEmpty || path.isEmpty then some path
    else some ("//".toList ++ authority ++ path)

/-- The text of the path where the document with this URI is kept. -/
def documentPath (u : Uri) : Text := u.filePath?.getD (percentDecode u.path)

/-- The file extension of the last segment of the path, without its dot. -/
def extension (u : Uri) : Text := (Path.ofText u.path).extension.dropWhile (· == '.')

end Uri

end Shorthand.Files
