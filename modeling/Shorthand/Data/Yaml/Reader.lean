/-
Values read from YAML. A collection that stands within itself has no finite value; it is
unrolled further than any value is nested otherwise.
-/
import Shorthand.Data.Yaml.Shape
import Shorthand.Text.Utf8

namespace Shorthand.Data.Yaml

/-- The value of a shape, by the values that its parts have so far. -/
def Shape.value (known : Array Value) : Shape → Value
  | .scalar s => .scalar s
  | .list items => .list (items.map (known.getD · .null))
  | .pairs entries => .list (entries.map fun (k, v) => .list [known.getD k .null, known.getD v .null])
  | .set members => .set members
  | .mapping entries => .mapping (entries.entries.map fun (k, v) => (k, known.getD v .null))

/-- Gives the nodes their values, in the order in which they ended. -/
def valuesFrom (shapes : Array (Option Shape)) (ended : Array Nat) (known : Array Value) :
    Array Value :=
  ended.foldl (fun known id =>
    known.setIfInBounds id (((shapes.getD id none).map (·.value known)).getD .null)) known

/-- Whether a collection has a part that ends after it. -/
def unrolls (shapes : Array (Option Shape)) (ended : Array Nat) : Bool :=
  (ended.foldl (fun (seen, later) id =>
    let parts := ((shapes.getD id none).map Shape.parts).getD []
    (seen.setIfInBounds id true, later || parts.any fun part => !seen.getD part false))
    (Array.replicate shapes.size false, false)).2

/-- Runs a step over and over. -/
def again {α : Type} (step : α → α) : Nat → α → α
  | 0, a => a
  | n + 1, a => again step n (step a)

/-- The values of all nodes. One pass gives each node its value, unless a collection stands
within itself: then each pass unrolls it once more. -/
def values (shapes : Array (Option Shape)) (ended : Array Nat) : Array Value :=
  again (valuesFrom shapes ended) (if unrolls shapes ended then maxDepth + 1 else 1)
    (Array.replicate shapes.size .null)

/-- The value a text is the YAML of. A blank text is nothing. -/
def read (t : Text) : Except ReadFault Value := do
  let body := match t with
    | '\uFEFF' :: rest => rest
    | t => t
  if !t.all isAllowed then throw .malformed
  match ← document (tokens Text.ofUtf8? body) with
  | none => return .null
  | some (graph, root) =>
    let shaping ← Shaping.run graph.nodes root
    return (values shaping.shapes graph.ended).getD root .null

end Shorthand.Data.Yaml
