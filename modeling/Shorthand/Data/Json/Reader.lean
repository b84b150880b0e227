/-
Values read from JSON. Of two entries with one key the later counts.
-/
import Shorthand.Data.Json.Token
import Shorthand.Data.ReadFault

namespace Shorthand.Data.Json

/-- How many lists and mappings may stand in one another. -/
def maxDepth : Nat := 988

mutual

/-- The value that begins a list of tokens, and what follows it; `depth` more lists and
mappings may be opened. -/
def value : (fuel depth : Nat) → List Token → Except ReadFault (Value × List Token)
  | 0, _, _ => .error .malformed
  | _ + 1, _, .scalar s :: rest => .ok (.scalar s, rest)
  | _ + 1, 0, .openBracket :: _ => .error (.obstacle (.tooDeepIn false))
  | _ + 1, 0, .openBrace :: _ => .error (.obstacle (.tooDeepIn true))
  | _ + 1, _ + 1, .openBracket :: .closeBracket :: rest => .ok (.list [], rest)
  | fuel + 1, depth + 1, .openBracket :: rest =>
    (items fuel depth rest).map fun (items, after) => (.list items, after)
  | _ + 1, _ + 1, .openBrace :: .closeBrace :: rest => .ok (.mapping [], rest)
  | fuel + 1, depth + 1, .openBrace :: rest =>
    (members fuel depth rest).map fun (members, after) =>
      (.ofMapping (Dict.ofList members), after)
  | _, _, _ => .error .malformed

/-- The items of a list that is open, one or more. -/
def items : (fuel depth : Nat) → List Token → Except ReadFault (List Value × List Token)
  | 0, _, _ => .error .malformed
  | fuel + 1, depth, tokens =>
    match value fuel depth tokens with
    | .error why => .error why
    | .ok (v, .comma :: rest) =>
      (items fuel depth rest).map fun (vs, after) => (v :: vs, after)
    | .ok (v, .closeBracket :: rest) => .ok ([v], rest)
    | .ok _ => .error .malformed

/-- The members of a mapping that is open, one or more. -/
def members : (fuel depth : Nat) → List Token →
    Except ReadFault (List (Scalar × Value) × List Token)
  | 0, _, _ => .error .malformed
  | fuel + 1, depth, .scalar (.text k) :: .colon :: tokens =>
    match value fuel depth tokens with
    | .error why => .error why
    | .ok (v, .comma :: rest) =>
      (members fuel depth rest).map fun (more, after) => ((.text k, v) :: more, after)
    | .ok (v, .closeBrace :: rest) => .ok ([(.text k, v)], rest)
    | .ok _ => .error .malformed
  | _, _, _ => .error .malformed

end

/-- The value a text is the JSON of. Each step down takes a token, two of them for the
items and members, which bounds the depth. -/
def read (t : Text) : Except ReadFault Value :=
  let tokens := tokens t
  match value (2 * tokens.length + 1) maxDepth tokens with
  | .error why => .error why
  | .ok (v, []) => .ok v
  | .ok _ => .error .malformed

end Shorthand.Data.Json
