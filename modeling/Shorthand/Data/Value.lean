/-
The values that settings, profiles and source files are made of.

A key of a mapping is a scalar. Numbers that are equal are one key, whatever their
kind: `1`, `1.0` and `true` name the same entry.
-/
import Shorthand.Data.Binary64
import Shorthand.Data.Dict
import Shorthand.Data.Moment
import Shorthand.Text.Quoted

namespace Shorthand.Data

inductive Scalar where
  | null
  | bool (b : Bool)
  | int (n : Int)
  | float (x : Binary64)
  | text (t : Text)
  | date (d : Date)
  | moment (m : Moment)
  | bytes (b : List UInt8)
  deriving DecidableEq, Repr, Inhabited

namespace Scalar

/-- What makes two scalars equal: the value of a number, the point in time of a moment,
the kind and content of anything else. -/
inductive Identity where
  | null
  | int (n : Int)
  | float (x : Binary64)
  | text (t : Text)
  | date (d : Date)
  | moment (m : Moment)
  | instant (micros : Int)
  | bytes (b : List UInt8)
  deriving DecidableEq, Repr

def identity : Scalar → Identity
  | .null => .null
  | .bool b => .int (if b then 1 else 0)
  | .int n => .int n
  | .float x => match x.toInt? with
    | some n => .int n
    | none => .float x
  | .text t => .text t
  | .date d => .date d
  | .moment m => match m.instant? with
    | some micros => .instant micros
    | none => .moment m
  | .bytes b => .bytes b

/-- Scalars are equal when their identities are. -/
instance : BEq Scalar := ⟨fun a b => decide (a.identity = b.identity)⟩

theorem beq_iff {a b : Scalar} : (a == b) = true ↔ a.identity = b.identity :=
  decide_eq_true_iff

instance : EquivBEq Scalar where
  rfl := beq_iff.2 rfl
  symm h := beq_iff.2 (beq_iff.1 h).symm
  trans h h' := beq_iff.2 ((beq_iff.1 h).trans (beq_iff.1 h'))

/-- The text of a scalar. -/
def toText : Scalar → Text
  | .null => "None".toList
  | .bool true => "True".toList
  | .bool false => "False".toList
  | .int n => Text.ofInt n
  | .float x => x.toText
  | .text t => t
  | .date d => d.toText
  | .moment m => m.toText
  | .bytes b => Text.quotedBytes b

/-- Whether a scalar is an integer of more digits than are written. -/
def isTooLong : Scalar → Bool
  | .int n => Nat.pow 10 Text.maxNumberLength ≤ n.natAbs
  | _ => false

/-- The text of a scalar inside a collection, where texts are quoted. -/
def quoted : Scalar → Text
  | .text t => Text.quoted t
  | s => s.toText

/-- Whether a scalar counts as true: zero, the empty text and nothing do not. -/
def truthy : Scalar → Bool
  | .null => false
  | .bool b => b
  | .int n => n != 0
  | .float x => !x.isZero
  | .text t => !t.isEmpty
  | .bytes b => !b.isEmpty
  | .date _ | .moment _ => true

/-- The word for the type of a scalar. -/
def typeName : Scalar → Text
  | .null => "NoneType".toList
  | .bool _ => "bool".toList
  | .int _ => "int".toList
  | .float _ => "float".toList
  | .text _ => "str".toList
  | .date _ => "date".toList
  | .moment _ => "datetime".toList
  | .bytes _ => "bytes".toList

end Scalar

/-- A value: a scalar, a list, a set of scalars or a mapping in the order of its
entries. -/
inductive Value where
  | scalar (s : Scalar)
  | list (items : List Value)
  | set (members : List Scalar)
  | mapping (entries : List (Scalar × Value))
  deriving Inhabited

/-- A mapping of values. -/
abbrev Mapping := Dict Scalar Value

namespace Value

def null : Value := .scalar .null

def bool (b : Bool) : Value := .scalar (.bool b)

def int (n : Int) : Value := .scalar (.int n)

def text (t : Text) : Value := .scalar (.text t)

def ofMapping (m : Mapping) : Value := .mapping m.entries

/-- The mapping a value is, if it is one. -/
def mapping? : Value → Option Mapping
  | .mapping entries => some (Dict.ofList entries)
  | _ => none

def text? : Value → Option Text
  | .scalar (.text t) => some t
  | _ => none

def isNull : Value → Bool
  | .scalar .null => true
  | _ => false

/-- Whether a value counts as true: empty collections do not. -/
def truthy : Value → Bool
  | .scalar s => s.truthy
  | .list items => !items.isEmpty
  | .set members => !members.isEmpty
  | .mapping entries => !entries.isEmpty

mutual

/-- The text of a value inside a collection. -/
def quoted : Value → Text
  | .scalar s => s.quoted
  | .list items => '[' :: quotedItems items ++ [']']
  | .set members => '\x7b' :: Text.joinWith ", ".toList (members.map Scalar.quoted) ++ ['\x7d']
  | .mapping entries => '\x7b' :: quotedEntries entries ++ ['\x7d']

/-- The items of a list with commas between them. -/
def quotedItems : List Value → Text
  | [] => []
  | [v] => v.quoted
  | v :: vs => v.quoted ++ ", ".toList ++ quotedItems vs

/-- The entries of a mapping with commas between them. -/
def quotedEntries : List (Scalar × Value) → Text
  | [] => []
  | [(k, v)] => k.quoted ++ ": ".toList ++ v.quoted
  | (k, v) :: entries =>
    k.quoted ++ ": ".toList ++ v.quoted ++ ", ".toList ++ quotedEntries entries

end

/-- The text of a value. -/
def toText : Value → Text
  | .scalar s => s.toText
  | v => v.quoted

def typeName : Value → Text
  | .scalar s => s.typeName
  | .list _ => "list".toList
  | .set _ => "set".toList
  | .mapping _ => "dict".toList

end Value

end Shorthand.Data
