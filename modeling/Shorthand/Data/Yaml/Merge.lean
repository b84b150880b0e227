/-
Merge keys. Under the key `<<` a mapping takes in the entries of another one, or of those
in a sequence, before its own; a later entry counts. The text `=` as a key is a text like
any other from then on.
-/
import Shorthand.Data.Yaml.Node

namespace Shorthand.Data.Yaml

/-- The nodes of a document by their numbers. -/
abbrev Nodes := Array Node

namespace Nodes

def tag (nodes : Nodes) (id : Nat) : Tag := (nodes.getD id default).tag

def content (nodes : Nodes) (id : Nat) : Content := (nodes.getD id default).content

/-- The entries of a mapping, none of any other node. -/
def entries (nodes : Nodes) (id : Nat) : List (Nat × Nat) :=
  match nodes.content id with
  | .mapping entries => entries
  | _ => []

def setEntries (nodes : Nodes) (id : Nat) (entries : List (Nat × Nat)) : Nodes :=
  nodes.modify id fun node => { node with content := .mapping entries }

/-- Makes the key `=` a text. -/
def settleKey (nodes : Nodes) (key : Nat) : Nodes :=
  if nodes.tag key = .value then nodes.modify key fun node => { node with tag := .text } else nodes

/-- Puts entries before those of a mapping that has no merge keys left. -/
def addMerged (nodes : Nodes) (id : Nat) (merged : List (Nat × Nat)) : Nodes :=
  let own := nodes.entries id
  (own.foldl (fun nodes entry => nodes.settleKey entry.1) nodes).setEntries id (merged ++ own)

/-- Takes the entries in that the merge keys of a mapping ask for, `merged` coming from
those before. Each step takes a merge key away, so that `fuel` of them take `fuel` steps. -/
def mergeInto : (fuel : Nat) → (id : Nat) → (merged : List (Nat × Nat)) → Nodes →
    Except ReadFault Nodes
  | 0, _, _, _ => .error .malformed
  | fuel + 1, id, merged, nodes =>
    let own := nodes.entries id
    match own.findIdx? fun entry => nodes.tag entry.1 == .merge with
    | none => .ok (nodes.addMerged id merged)
    | some i => do
      let source := (own.map (·.2)).getD i 0
      let nodes := nodes.setEntries id (own.eraseIdx i)
      match nodes.content source with
      | .mapping _ =>
        let nodes ← mergeInto fuel source [] nodes
        mergeInto fuel id (merged ++ nodes.entries source) nodes
      | .sequence items =>
        let (nodes, later) ← items.foldlM (fun (nodes, later) item => do
          match nodes.content item with
          | .mapping _ =>
            let nodes ← mergeInto fuel item [] nodes
            return (nodes, nodes.entries item ++ later)
          | _ => throw .malformed) (nodes, [])
        mergeInto fuel id (merged ++ later) nodes
      | .scalar _ => throw .malformed

/-- The number of entries of all mappings, which is no less than that of merge keys. -/
def entryCount (nodes : Nodes) : Nat :=
  nodes.foldl (fun n node => match node.content with
    | .mapping entries => n + entries.length
    | _ => n) 0

end Nodes

end Shorthand.Data.Yaml
