/-
What a dialect sees of a snapshot. Sections are laid over each other from the root to the
dialect, and `get?_inherit` reads the result off key by key: the first dialect of the chain
that has a key decides. `resolve_nearest` says so of snippets and of variables, with the
chain described as a walk along the parents.
-/
import Shorthand.Extensions.Snapshot
import Shorthand.Proofs.Dialect.Ancestry

namespace Shorthand

theorem Data.Dict.contains_iff {κ α : Type} [BEq κ] {d : Dict κ α} {k : κ} :
    d.contains k = true ↔ ∃ v, d.get? k = some v := by
  rw [Dict.contains, List.any_eq_true, ← List.find?_isSome, Dict.get?, ← Option.isSome_iff_exists,
    Option.isSome_map]

namespace Extensions.Snapshot

open Data Dialect

section Sections

variable {κ α : Type} [BEq κ] {sections sections' : Dict Scalar (Dict κ α)} {line : List Text} {key : κ}
  {value : α}

/-- What the section of a dialect has for a key. -/
def sectionValue? (sections : Dict Scalar (Dict κ α)) (key : κ) (dialect : Text) : Option α :=
  (sections.get? (.text dialect)).bind (·.get? key)

/-- The first dialect of a line that has the key has it with this value. -/
def Nearest (sections : Dict Scalar (Dict κ α)) (line : List Text) (key : κ) (value : α) : Prop :=
  ∃ nearer dialect farther, line = nearer ++ dialect :: farther ∧
    sectionValue? sections key dialect = some value ∧ ∀ d ∈ nearer, sectionValue? sections key d = none

theorem nearest_iff : Nearest sections line key value ↔ line.findSome? (sectionValue? sections key) = some value :=
  List.findSome?_eq_some_iff.symm

theorem exists_nearest_iff :
    (∃ value, Nearest sections line key value) ↔
      ∃ d ∈ line, ∃ value, sectionValue? sections key d = some value := by
  simp only [nearest_iff, ← Option.isSome_iff_exists, List.findSome?_isSome_iff]

/-- Of the sections laid over each other the last one that has a key decides, and where
none has it what they were laid over. -/
theorem get?_inherit [EquivBEq κ] (base : Dict κ α) (lineage : List Text) :
    (inherit sections base lineage).get? key =
      (lineage.reverse.findSome? (sectionValue? sections key)).or (base.get? key) := by
  induction lineage generalizing base with
  | nil => rfl
  | cons dialect lineage ih =>
    have hsection : ((sections.get? (.text dialect)).getD {}).get? key = sectionValue? sections key dialect := by
      rw [sectionValue?]
      cases sections.get? (.text dialect) <;> rfl
    have hlast : [dialect].findSome? (sectionValue? sections key) = sectionValue? sections key dialect := by
      rw [List.findSome?_cons]
      cases sectionValue? sections key dialect <;> rfl
    rw [inherit, List.foldl_cons, ← inherit, ih, Dict.get?_update, hsection, List.reverse_cons,
      List.findSome?_append, hlast, Option.or_assoc]

theorem get?_inherit_reverse [EquivBEq κ] (base : Dict κ α) :
    (inherit sections base line.reverse).get? key = some value ↔
      Nearest sections line key value ∨
        (∀ d ∈ line, sectionValue? sections key d = none) ∧ base.get? key = some value := by
  rw [get?_inherit, List.reverse_reverse, Option.or_eq_some_iff, nearest_iff, List.findSome?_eq_none_iff]

/-- Only the sections of the dialects in a line count. -/
theorem inherit_congr (base : Dict κ α) (lineage : List Text)
    (h : ∀ d ∈ lineage, sections.get? (.text d) = sections'.get? (.text d)) :
    inherit sections base lineage = inherit sections' base lineage := by
  induction lineage generalizing base with
  | nil => rfl
  | cons dialect lineage ih =>
    obtain ⟨hfirst, hrest⟩ := List.forall_mem_cons.1 h
    rw [inherit, List.foldl_cons, ← inherit, ih _ hrest, hfirst]
    rfl

end Sections

/-- Two snapshots that differ at most in what they hold for dialects outside a line. -/
structure AgreesOn (line : List Text) (s s' : Snapshot) : Prop where
  parents : s.parents = s'.parents
  vars : s.vars = s'.vars
  snippets : ∀ d ∈ line, s.snippets.map (·.get? (.text d)) = s'.snippets.map (·.get? (.text d))
  dialectVars : ∀ d ∈ line, s.dialectVars.get? (.text d) = s'.dialectVars.get? (.text d)

theorem AgreesOn.resolveSnippets_eq {s s' : Snapshot} {dialect : Text}
    (h : AgreesOn (chain dialect s.parents) s s') : s.resolveSnippets dialect = s'.resolveSnippets dialect := by
  have hfirst := h.snippets dialect List.mem_cons_self
  rw [resolveSnippets, resolveSnippets, lineage, lineage, ← h.parents]
  cases hs : s.snippets with
  | none =>
    cases hs' : s'.snippets with
    | none => rfl
    | some sections' =>
      rw [hs, hs'] at hfirst
      cases hfirst
  | some sections =>
    cases hs' : s'.snippets with
    | none =>
      rw [hs, hs'] at hfirst
      cases hfirst
    | some sections' =>
      refine congrArg some (inherit_congr _ _ fun d hd => ?_)
      have hsame := h.snippets d (List.mem_reverse.1 hd)
      rw [hs, hs'] at hsame
      exact Option.some.inj hsame

theorem AgreesOn.resolveVariables_eq {s s' : Snapshot} {dialect : Text}
    (h : AgreesOn (chain dialect s.parents) s s') :
    s.resolveVariables dialect = s'.resolveVariables dialect := by
  rw [resolveVariables, resolveVariables, lineage, lineage, ← h.parents, ← h.vars]
  exact inherit_congr _ _ fun d hd => h.dialectVars d (List.mem_reverse.1 hd)

/-- **The nearest dialect decides.** With snippets loaded, a dialect sees a key just when a
dialect of its chain has it, with the value of the first one that has it, counted from the
dialect towards the root; for variables the global ones count where no dialect of the chain
has the key. The chain is that of the declared parents over the built-in ones, with no
dialect twice. What a snapshot holds for other dialects is never seen. -/
theorem resolve_nearest (s : Snapshot) (dialect : Text) :
    Ancestry (overlay s.parents) dialect (chain dialect s.parents) ∧
    (s.resolveSnippets dialect = none ↔ s.snippets = none) ∧
    (∀ sections, s.snippets = some sections →
      ∃ resolved, s.resolveSnippets dialect = some resolved ∧
        (∀ key, resolved.contains key = true ↔
          ∃ d ∈ chain dialect s.parents, ∃ value, sectionValue? sections key d = some value) ∧
        ∀ key value, resolved.get? key = some value ↔
          Nearest sections (chain dialect s.parents) key value) ∧
    (∀ key value, (s.resolveVariables dialect).get? key = some value ↔
      Nearest s.dialectVars (chain dialect s.parents) key value ∨
        (∀ d ∈ chain dialect s.parents, sectionValue? s.dialectVars key d = none) ∧
          s.vars.get? key = some value) ∧
    ∀ s', AgreesOn (chain dialect s.parents) s s' →
      s.resolveSnippets dialect = s'.resolveSnippets dialect ∧
        s.resolveVariables dialect = s'.resolveVariables dialect := by
  refine ⟨ancestry_chain _ _, by rw [resolveSnippets, Option.map_eq_none_iff], ?_,
    fun _ _ => get?_inherit_reverse _, fun _ h => ⟨h.resolveSnippets_eq, h.resolveVariables_eq⟩⟩
  intro sections hsections
  have hvalue (key value : Text) :
      (inherit sections {} (chain dialect s.parents).reverse).get? key = some value ↔
        Nearest sections (chain dialect s.parents) key value := by
    rw [get?_inherit_reverse]
    exact or_iff_left fun h => nomatch h.2
  refine ⟨_, by rw [resolveSnippets, hsections, Option.map_some, lineage], fun key => ?_, hvalue⟩
  rw [Dict.contains_iff, ← exists_nearest_iff]
  exact exists_congr (hvalue key)

/-- Two dialects that extend each other: the walk ends where it would come back to the first
one, and the root of the family is not reached. A key that both have is that of the nearer
one, and what the root has is not seen, so that it may as well be missing. -/
theorem resolve_nearest_cycle :
    let parents : Parents := .ofList [(.text "scss".toList, "mine".toList), (.text "mine".toList, "scss".toList)]
    let mine : Snippets := .ofList [(['a'], ['1']), (['b'], ['2'])]
    let scss : Snippets := .ofList [(['a'], ['3'])]
    let css : Snippets := .ofList [(['c'], ['4'])]
    let sections : Dict Scalar Snippets :=
      .ofList [(.text "mine".toList, mine), (.text "scss".toList, scss), (.text "css".toList, css)]
    let fewer : Dict Scalar Snippets := .ofList [(.text "mine".toList, mine), (.text "scss".toList, scss)]
    let s : Snapshot := { builtin 1 with parents := parents, snippets := some sections }
    let s' : Snapshot := { s with snippets := some fewer }
    s.snippets = some sections ∧ AgreesOn (chain "scss".toList s.parents) s s' ∧
      (∃ resolved, s.resolveSnippets "scss".toList = some resolved ∧ resolved.get? ['a'] = some ['3'] ∧
        resolved.get? ['b'] = some ['2'] ∧ resolved.contains ['c'] = false) ∧
      s.resolveSnippets "scss".toList = s'.resolveSnippets "scss".toList := by
  intro parents mine scss css sections fewer s s'
  have hchain : chain "scss".toList s.parents = ["scss".toList, "mine".toList] := by decide +kernel
  have hagrees : AgreesOn (chain "scss".toList s.parents) s s' := by
    rw [hchain]
    refine ⟨rfl, rfl, ?_, fun _ _ => rfl⟩
    exact List.forall_mem_cons.2 ⟨rfl, List.forall_mem_cons.2 ⟨rfl, nofun⟩⟩
  obtain ⟨-, -, hsnippets, -, hunseen⟩ := resolve_nearest s "scss".toList
  obtain ⟨resolved, hresolved, hkeys, hvalues⟩ := hsnippets sections rfl
  rw [hchain] at hkeys hvalues
  refine ⟨rfl, hagrees, ⟨resolved, hresolved, (hvalues _ _).2 ?_, (hvalues _ _).2 ?_, ?_⟩, (hunseen s' hagrees).1⟩
  · exact ⟨[], _, _, rfl, rfl, by simp⟩
  · exact ⟨["scss".toList], _, _, rfl, rfl, by decide⟩
  · rw [Bool.eq_false_iff, ne_eq, hkeys]
    rintro ⟨d, hd, value, hvalue⟩
    obtain rfl | rfl : d = "scss".toList ∨ d = "mine".toList := by simpa using hd
    · cases hvalue
    · cases hvalue

end Extensions.Snapshot

end Shorthand
