/-
Inheritance between dialects. Every dialect but the two roots extends the root of
its family, and the user may declare other parents. The chain of a dialect is the
walk along the parents; a cycle ends it where it would visit a dialect again.
-/
import Shorthand.Data.Value
import Shorthand.Dialect.Family

namespace Shorthand.Dialect

open Data

/-- Parents by dialect. -/
abbrev Parents := Dict Scalar Text

/-- The parents every dialect has from the start. -/
def builtinParents : Parents :=
  Dict.ofList <|
    (markupDialects.drop 1).map (fun d => (.text d, Family.markup.root)) ++
    (stylesheetDialects.drop 1).map (fun d => (.text d, Family.stylesheet.root))

/-- The parents in force: the declared ones over the built-in ones. -/
def overlay (declared : Parents) : Parents := builtinParents.update declared

/-- The parents in a table that have not been visited, one for each entry. -/
def unvisited (parents : Parents) (visited : List Text) : List Text :=
  (parents.entries.map (·.2)).filter (!visited.contains ·)

theorem unvisited_cons (parents : Parents) (visited : List Text) (parent : Text) :
    unvisited parents (parent :: visited) = (unvisited parents visited).filter (· != parent) := by
  rw [unvisited, unvisited, List.filter_filter]
  refine List.filter_congr fun d _ => ?_
  rw [List.contains_cons, Bool.not_or]
  rfl

/-- A step of the walk visits a parent that was not visited. -/
theorem length_unvisited_lt {parents : Parents} {visited : List Text} {dialect parent : Text}
    (h : parents.get? (.text dialect) = some parent) (hnew : visited.contains parent = false) :
    (unvisited parents (parent :: visited)).length < (unvisited parents visited).length := by
  obtain ⟨e, he, rfl⟩ := Option.map_eq_some_iff.1 h
  have hmem : e.2 ∈ unvisited parents visited := by
    rw [unvisited, List.mem_filter, hnew]
    exact ⟨List.mem_map_of_mem (List.mem_of_find?_eq_some he), rfl⟩
  rw [unvisited_cons]
  exact List.length_filter_lt_length_iff_exists.2 ⟨e.2, hmem, by simp⟩

/-- The ancestors of a dialect, nearest first, up to one that is blank or already
`visited`. -/
def ancestors (parents : Parents) (visited : List Text) (dialect : Text) : List Text :=
  match h : parents.get? (.text dialect) with
  | none => []
  | some parent =>
    if hends : parent.isEmpty || visited.contains parent then []
    else
      have := length_unvisited_lt h (Bool.or_eq_false_iff.1 (Bool.eq_false_iff.2 hends)).2
      parent :: ancestors parents (parent :: visited) parent
termination_by (unvisited parents visited).length

/-- A dialect followed by its ancestors, the root last. -/
def chain (dialect : Text) (declared : Parents) : List Text :=
  dialect :: ancestors (overlay declared) [dialect] dialect

end Shorthand.Dialect
