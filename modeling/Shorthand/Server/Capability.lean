/-
Capabilities: the parts that answer requests. Each request goes to those that have a
part in it, in the order in which their names were first taken. One that fails is
reported and left out.
-/
import Shorthand.Failure
import Shorthand.Server.Item
import Shorthand.Server.Workspace

namespace Shorthand.Server

open Data

/-- Where a request is made: a position in the document of a URI. -/
structure Cursor where
  uri : Text
  position : Position
  deriving DecidableEq, Repr

/-- A capability. What it does may change a state of type `σ`. It has a part in
completion and one in expansion, either of which may be missing. -/
structure Capability (σ : Type) where
  name : Text
  register : σ → σ
  applies : Cursor → σ → Except Failure Bool × σ
  complete : Option (Cursor → σ → Except Failure (List Item) × σ)
  expandAt : Option (Source → Position → σ → Except Failure (Option Edit) × σ)

/-- The parts a capability can be asked for. -/
inductive Part where
  | completion | expansion
  deriving DecidableEq, Repr

namespace Capability

variable {σ : Type}

def has (c : Capability σ) : Part → Bool
  | .completion => c.complete.isSome
  | .expansion => c.expandAt.isSome

def report (c : Capability σ) (why : Failure) : LogEntry :=
  ⟨.error, "Emmet ".toList ++ c.name ++ " failed: ".toList ++ why.toText⟩

/-- The items of a capability. One without a part in completion has none and is not asked
whether it applies. -/
def items (c : Capability σ) (cursor : Cursor) (s : σ) : Except Failure (List Item) × σ :=
  match c.complete with
  | none => (.ok [], s)
  | some complete => match c.applies cursor s with
    | (.error why, s) => (.error why, s)
    | (.ok false, s) => (.ok [], s)
    | (.ok true, s) => complete cursor s

/-- The items of all capabilities. -/
def allItems (cursor : Cursor) : List (Capability σ) → σ → List Item × σ × Log
  | [], s => ([], s, [])
  | c :: others, s => match c.items cursor s with
    | (.ok items, s) =>
      let (more, s, log) := allItems cursor others s
      (items ++ more, s, log)
    | (.error why, s) =>
      let (more, s, log) := allItems cursor others s
      (more, s, c.report why :: log)

/-- The edit of a capability. -/
def edit? (c : Capability σ) (source : Source) (position : Position) (s : σ) :
    Except Failure (Option Edit) × σ :=
  match c.expandAt with
  | none => (.ok none, s)
  | some expandAt => expandAt source position s

/-- The first edit there is; what comes after its capability is not asked. -/
def firstEdit? (source : Source) (position : Position) :
    List (Capability σ) → σ → Option Edit × σ × Log
  | [], s => (none, s, [])
  | c :: others, s => match c.edit? source position s with
    | (.ok (some edit), s) => (some edit, s, [])
    | (.ok none, s) => firstEdit? source position others s
    | (.error why, s) =>
      let (edit, s, log) := firstEdit? source position others s
      (edit, s, c.report why :: log)

end Capability

/-- Capabilities by name. A name that is given again keeps its place and takes the later
capability. -/
structure Capabilities (σ : Type) where
  byName : Dict Text (Capability σ)
  registered : Bool

namespace Capabilities

variable {σ : Type}

def ofList (capabilities : List (Capability σ)) : Capabilities σ where
  byName := Dict.ofList (capabilities.map fun c => (c.name, c))
  registered := false

def toList (cs : Capabilities σ) : List (Capability σ) := cs.byName.entries.map (·.2)

/-- Registers every capability the first time it is called. -/
def registerAll (cs : Capabilities σ) (s : σ) : Capabilities σ × σ :=
  if cs.registered then (cs, s)
  else ({ cs with registered := true }, cs.toList.foldl (fun s c => c.register s) s)

def get? (cs : Capabilities σ) (name : Text) : Option (Capability σ) := cs.byName.get? name

/-- The capabilities that have a part. -/
def having (cs : Capabilities σ) (part : Part) : List (Capability σ) :=
  cs.toList.filter (·.has part)

/-- Completion from all capabilities. The list is always incomplete, so that the client
asks again as the abbreviation grows. -/
def complete (cs : Capabilities σ) (cursor : Cursor) (s : σ) : Completions × σ × Log :=
  let (items, s, log) := Capability.allItems cursor cs.toList s
  (⟨true, items⟩, s, log)

/-- The first edit of a capability. -/
def expand (cs : Capabilities σ) (source : Source) (position : Position) (s : σ) :
    Option Edit × σ × Log :=
  Capability.firstEdit? source position cs.toList s

end Capabilities

end Shorthand.Server
