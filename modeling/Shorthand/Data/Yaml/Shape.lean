/-
What the nodes of a document are by their tags. The outermost node comes first, and the
parts of each collection in the order in which the collections were met, so that of several
faults the outer one counts.
-/
import Shorthand.Data.Yaml.Merge
import Shorthand.Data.Yaml.Scalar

namespace Shorthand.Data.Yaml

/-- What a node is: a scalar, or a collection whose parts are known by their numbers. -/
inductive Shape where
  | scalar (s : Scalar)
  | list (items : List Nat)
  | pairs (entries : List (Nat × Nat))
  | set (members : List Scalar)
  | mapping (entries : Dict Scalar Nat)

/-- The numbers of the parts. -/
def Shape.parts : Shape → List Nat
  | .scalar _ | .set _ => []
  | .list items => items
  | .pairs entries => entries.flatMap fun (k, v) => [k, v]
  | .mapping entries => entries.entries.map (·.2)

/-- The shapes found so far. A collection that has been met stands in the queue, and has a
shape without parts until it is its turn. -/
structure Shaping where
  nodes : Nodes
  shapes : Array (Option Shape)
  queue : Array Nat
  /-- As many steps as merging may take. -/
  mergeFuel : Nat

namespace Shaping

def init (nodes : Nodes) : Shaping where
  nodes := nodes
  shapes := Array.replicate nodes.size none
  queue := #[]
  mergeFuel := nodes.entryCount + 1

def setShape (s : Shaping) (id : Nat) (shape : Shape) : Shaping :=
  { s with shapes := s.shapes.setIfInBounds id (some shape) }

/-- The text of a node that is to be a scalar: its own, or what a mapping has under the
key `=`. -/
def scalarText (nodes : Nodes) : (fuel : Nat) → (id : Nat) → Except ReadFault Text
  | 0, _ => .error (.obstacle .tooDeep)
  | fuel + 1, id => match nodes.content id with
    | .scalar t => .ok t
    | .sequence _ => .error .malformed
    | .mapping entries => match entries.find? fun entry => nodes.tag entry.1 == .value with
      | some (_, value) => scalarText nodes fuel value
      | none => .error .malformed

/-- The scalar that a node is by its tag. A time has to be a scalar of its own. -/
def scalarOf (nodes : Nodes) (id : Nat) : Except ReadFault Scalar := do
  let t ← scalarText nodes (nodes.size + 1) id
  match nodes.tag id, nodes.content id with
  | .timestamp, .mapping _ => throw (.obstacle .mappingAsTime)
  | tag, _ => scalar tag t

/-- The shape of a collection of which no part has been met. -/
def blank? : Tag → Option Shape
  | .sequence => some (.list [])
  | .orderedMap | .pairs => some (.pairs [])
  | .set => some (.set [])
  | .mapping => some (.mapping {})
  | _ => none

/-- Meets a node: a scalar has its shape at once, a collection is put in the queue. -/
def meet (s : Shaping) (id : Nat) : Except ReadFault Shaping :=
  if (s.shapes.getD id none).isSome then .ok s
  else match blank? (s.nodes.tag id) with
    | some shape => .ok { s.setShape id shape with queue := s.queue.push id }
    | none => (scalarOf s.nodes id).map fun x => s.setShape id (.scalar x)

/-- Meets a key, which has to be a scalar. -/
def meetKey (s : Shaping) (id : Nat) : Except ReadFault (Scalar × Shaping) := do
  let s ← s.meet id
  match s.shapes.getD id none with
  | some (.scalar key) => return (key, s)
  | _ => throw .malformed

/-- Meets the keys and values of a mapping after merging. -/
def meetEntries (s : Shaping) (id : Nat) : Except ReadFault (Dict Scalar Nat × Shaping) := do
  match s.nodes.content id with
  | .mapping _ =>
    let nodes ← s.nodes.mergeInto s.mergeFuel id []
    (nodes.entries id).foldlM (fun (entries, s) (k, v) => do
      let (key, s) ← s.meetKey k
      let s ← s.meet v
      return (entries.insert key v, s)) ({}, { s with nodes := nodes })
  | _ => throw .malformed

/-- Meets the key and the value of a mapping that has just one entry. -/
def meetPair (s : Shaping) (id : Nat) : Except ReadFault ((Nat × Nat) × Shaping) := do
  match s.nodes.content id with
  | .mapping [(k, v)] => return ((k, v), ← (← s.meet k).meet v)
  | _ => throw .malformed

/-- Gives a collection its parts. -/
def fill (s : Shaping) (id : Nat) : Except ReadFault Shaping := do
  match s.nodes.tag id, s.nodes.content id with
  | .sequence, .sequence items =>
    let s ← items.foldlM meet s
    return s.setShape id (.list items)
  | .orderedMap, .sequence items | .pairs, .sequence items =>
    let (pairs, s) ← items.foldlM (fun (pairs, s) item => do
      let (pair, s) ← s.meetPair item
      return (pair :: pairs, s)) ([], s)
    return s.setShape id (.pairs pairs.reverse)
  | .set, _ =>
    let (entries, s) ← s.meetEntries id
    return s.setShape id (.set entries.keys)
  | .mapping, _ =>
    let (entries, s) ← s.meetEntries id
    return s.setShape id (.mapping entries)
  | _, _ => throw .malformed

/-- Fills the collections in the queue from `i` on. Each node is there once at most. -/
def fillFrom : (fuel i : Nat) → Shaping → Except ReadFault Shaping
  | 0, _, s => .ok s
  | fuel + 1, i, s => match s.queue[i]? with
    | none => .ok s
    | some id => do fillFrom fuel (i + 1) (← s.fill id)

/-- Finds the shapes of all nodes that a node leads to. -/
def run (nodes : Nodes) (root : Nat) : Except ReadFault Shaping := do
  fillFrom (nodes.size + 1) 0 (← (init nodes).meet root)

end Shaping

end Shorthand.Data.Yaml
