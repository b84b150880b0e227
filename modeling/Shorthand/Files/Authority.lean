/-
The authorities a URI may have. Brackets hold an address of the sixth version of the
protocol or one of a version to come, and no character may turn into a delimiter when the
authority is normalised.
-/
import Shorthand.Text.Basic
import Shorthand.Text.Quoted

namespace Shorthand.Files

/-- Why a text is no URI: what is wrong with its authority. -/
inductive InvalidUri where
  | unbalancedBracket
  /-- There is text around brackets that is not a port. -/
  | textAroundBrackets
  | noAddress (bracketed : Text)
  | dottedAddress
  | futureAddress
  | hiddenDelimiter (authority : Text)
  deriving DecidableEq, Repr

def InvalidUri.message : InvalidUri → Text
  | .unbalancedBracket | .textAroundBrackets => "Invalid IPv6 URL".toList
  | .noAddress t => Text.quoted t ++ " does not appear to be an IPv4 or IPv6 address".toList
  | .dottedAddress => "An IPv4 address cannot be in brackets".toList
  | .futureAddress => "IPvFuture address is invalid".toList
  | .hiddenDelimiter t =>
    "netloc '".toList ++ t ++ "' contains invalid characters under NFKC normalization".toList

namespace Authority

/-- One to four hexadecimal digits. -/
def isGroup (t : Text) : Bool := !t.isEmpty && t.length ≤ 4 && t.all Text.isAsciiHexDigit

/-- A number up to 255, without leading zeros. -/
def isOctet (t : Text) : Bool :=
  !t.isEmpty && t.length ≤ 3 && t.all Text.isAsciiDigit && (t = ['0'] || t.head? != some '0') &&
    (Text.number? t).any (· ≤ 255)

/-- Four octets between dots, which stand for two groups. -/
def isDotted (t : Text) : Bool :=
  let octets := Text.splitOn '.' t
  octets.length = 4 && octets.all isOctet

/-- The number of groups on one side of the gap in an address; a side may be blank. -/
def sideLength? (groups : List Text) : Option Nat :=
  if groups = [[]] then some 0 else if groups.all isGroup then some groups.length else none

/-- Whether pieces between colons are eight groups, or fewer with one gap for the
others. -/
def areGroups (pieces : List Text) : Bool :=
  match (List.range (pieces.length - 2)).filter fun i => pieces[i + 1]? == some [] with
  | [] => pieces.length = 8 && pieces.all isGroup
  | [i] => match sideLength? (pieces.take (i + 1)), sideLength? (pieces.drop (i + 2)) with
    | some m, some n => m + n ≤ 7
    | _, _ => false
  | _ => false

/-- Eight groups between colons, a dotted address for the last two at choice. -/
def isColoned (t : Text) : Bool :=
  let pieces := Text.splitOn ':' t
  let last := pieces.getLast?.getD []
  3 ≤ pieces.length &&
    if last.contains '.' then
      isDotted last && areGroups (pieces.dropLast ++ [['0'], ['0']])
    else areGroups pieces

/-- An address with colons, and the name of a zone behind a percent sign at choice. -/
def isZoned (t : Text) : Bool :=
  match t.dropWhile (· != '%') with
  | [] => isColoned t
  | _ :: zone => !zone.isEmpty && !zone.contains '%' && isColoned (t.takeWhile (· != '%'))

/-- An address of a version to come: `v`, the version, a dot and more. -/
def isFuture : Text → Bool
  | 'v' :: rest =>
    let version := rest.takeWhile Text.isAsciiHexDigit
    !version.isEmpty && match rest.drop version.length with
      | '.' :: _ :: _ => true
      | _ => false
  | _ => false

/-- Characters that contain `/`, `?`, `#`, `@` or `:` once they are normalised. -/
def hiddenDelimiters : List Char :=
  ['\u2047', '\u2048', '\u2049', '\u2100', '\u2101', '\u2105', '\u2106', '\u2A74', '\uFE13',
   '\uFE16', '\uFE55', '\uFE56', '\uFE5F', '\uFE6B', '\uFF03', '\uFF0F', '\uFF1A', '\uFF1F',
   '\uFF20']

/-- The host and the port in an authority: what follows the last `@`. -/
def hostAndPort (t : Text) : Text := (t.reverse.takeWhile (· != '@')).reverse

/-- What is wrong with an address in brackets. -/
def addressFault? (t : Text) : Option InvalidUri :=
  if t.head? = some 'v' then if isFuture t then none else some .futureAddress
  else if isDotted t then some .dottedAddress
  else if isZoned t then none
  else some (.noAddress t)

/-- What is wrong with the host of an authority that has brackets. They stand at its
beginning, and only a port may follow them. -/
def hostFault? (t : Text) : Option InvalidUri :=
  match (hostAndPort t).span (· != '[') with
  | (before, _ :: rest) =>
    let behind := (rest.dropWhile (· != ']')).drop 1
    if !before.isEmpty || behind.head?.any (· != ':') then some .textAroundBrackets
    else addressFault? (rest.takeWhile (· != ']'))
  | (host, []) => addressFault? (host.takeWhile (· != ':'))

/-- What is wrong with an authority. -/
def fault? (t : Text) : Option InvalidUri :=
  if t.contains '[' != t.contains ']' then some .unbalancedBracket
  else (if t.contains '[' then hostFault? t else none).or
    (if t.any hiddenDelimiters.contains then some (.hiddenDelimiter t) else none)

end Authority

end Shorthand.Files
