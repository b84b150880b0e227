/-
The chain of a dialect as a walk along parents. `ancestry_chain` describes it by what a reader of the
table sees: each dialect stands before its parent, none stands there twice, and the last one has no
parent that is not in the chain. There is one such line (`ancestry_iff_eq_chain`), and by `chain_congr`
it hangs on nothing but what is declared for its own dialects.
-/
import Mathlib.Data.List.Chain
import Shorthand.Dialect.Inheritance
import Shorthand.Proofs.Data.LastEntry

namespace Shorthand

namespace Data

theorem Scalar.text_beq_iff {s t : Text} : (Scalar.text s == Scalar.text t) = true ↔ s = t := by
  rw [Scalar.beq_iff, Scalar.identity, Scalar.identity, Identity.text.injEq]

end Data

namespace Dialect

open Data

/-- A parent that is not blank. -/
def IsParent (parents : Parents) (child parent : Text) : Prop :=
  parents.get? (.text child) = some parent ∧ parent ≠ []

/-- A dialect and its ancestors: the walk along the parents that goes on for as long as it
finds a dialect that it has not visited. -/
structure Ancestry (parents : Parents) (dialect : Text) (line : List Text) : Prop where
  begins : line.head? = some dialect
  linked : line.IsChain (IsParent parents)
  nodup : line.Nodup
  ends : ∀ last ∈ line.getLast?, ∀ parent, IsParent parents last parent → parent ∈ line

variable {parents : Parents} {visited : List Text} {dialect parent : Text}

theorem ancestors_eq_nil (h : ∀ parent, IsParent parents dialect parent → parent ∈ visited) :
    ancestors parents visited dialect = [] := by
  rw [ancestors]
  split
  next => rfl
  next parent hparent =>
    by_cases hblank : parent = []
    · simp [hblank]
    · simp [h parent ⟨hparent, hblank⟩]

theorem ancestors_eq_cons (h : IsParent parents dialect parent) (hnew : parent ∉ visited) :
    ancestors parents visited dialect = parent :: ancestors parents (parent :: visited) parent := by
  rw [ancestors]
  split
  next hnone =>
    rw [h.1] at hnone
    cases hnone
  next parent' hparent =>
    rw [h.1, Option.some.injEq] at hparent
    subst hparent
    simp [h.2, hnew]

/-- A walk goes on to a parent that has not been visited, or ends. -/
theorem ancestors_cases (parents : Parents) (visited : List Text) (dialect : Text) :
    (∃ parent, IsParent parents dialect parent ∧ parent ∉ visited ∧
      ancestors parents visited dialect = parent :: ancestors parents (parent :: visited) parent) ∨
    (∀ parent, IsParent parents dialect parent → parent ∈ visited) ∧ ancestors parents visited dialect = [] := by
  by_cases h : ∃ parent, IsParent parents dialect parent ∧ parent ∉ visited
  · obtain ⟨parent, hparent, hnew⟩ := h
    exact .inl ⟨parent, hparent, hnew, ancestors_eq_cons hparent hnew⟩
  · have hall : ∀ parent, IsParent parents dialect parent → parent ∈ visited := by
      intro parent hparent
      by_contra hnew
      exact h ⟨parent, hparent, hnew⟩
    exact .inr ⟨hall, ancestors_eq_nil hall⟩

theorem IsParent.length_unvisited_lt (h : IsParent parents dialect parent) (hnew : parent ∉ visited) :
    (unvisited parents (parent :: visited)).length < (unvisited parents visited).length :=
  Dialect.length_unvisited_lt h.1 (by simpa using hnew)

/-- The walk from a dialect on. -/
theorem ancestors_walk (parents : Parents) (visited : List Text) (dialect : Text) :
    (dialect :: ancestors parents visited dialect).IsChain (IsParent parents) ∧
    (ancestors parents visited dialect).Nodup ∧
    (∀ d ∈ ancestors parents visited dialect, d ∉ visited) ∧
    ∀ last ∈ (dialect :: ancestors parents visited dialect).getLast?, ∀ parent,
      IsParent parents last parent → parent ∈ visited ∨ parent ∈ ancestors parents visited dialect := by
  obtain ⟨parent, hparent, hnew, hgoes⟩ | ⟨hall, hends⟩ := ancestors_cases parents visited dialect
  · have hlt := hparent.length_unvisited_lt hnew
    obtain ⟨hlinked, hnodup, hapart, hends⟩ := ancestors_walk parents (parent :: visited) parent
    rw [hgoes]
    refine ⟨.cons_cons hparent hlinked, List.nodup_cons.2 ⟨fun hmem => ?_, hnodup⟩, ?_, ?_⟩
    · exact hapart parent hmem List.mem_cons_self
    · refine List.forall_mem_cons.2 ⟨hnew, fun d hd hmem => ?_⟩
      exact hapart d hd (List.mem_cons_of_mem _ hmem)
    · intro last hlast next hnext
      rw [List.getLast?_cons_cons] at hlast
      rcases hends last hlast next hnext with hmem | hmem
      · rcases List.mem_cons.1 hmem with rfl | hmem
        · exact .inr List.mem_cons_self
        · exact .inl hmem
      · exact .inr (List.mem_cons_of_mem _ hmem)
  · rw [hends]
    refine ⟨.singleton _, List.nodup_nil, by simp, ?_⟩
    intro last hlast parent hparent
    obtain rfl : dialect = last := by simpa using hlast
    exact .inl (hall parent hparent)
termination_by (unvisited parents visited).length

/-- **The chain of a dialect is its ancestry** along the declared parents over the built-in
ones, whatever parents are declared. -/
theorem ancestry_chain (dialect : Text) (declared : Parents) :
    Ancestry (overlay declared) dialect (chain dialect declared) := by
  obtain ⟨hlinked, hnodup, hapart, hends⟩ := ancestors_walk (overlay declared) [dialect] dialect
  refine ⟨rfl, hlinked, List.nodup_cons.2 ⟨fun hmem => ?_, hnodup⟩, ?_⟩
  · exact hapart dialect hmem (List.mem_singleton.2 rfl)
  · intro last hlast parent hp
    rcases hends last hlast parent hp with hmem | hmem
    · rw [List.mem_singleton.1 hmem]
      exact List.mem_cons_self
    · exact List.mem_cons_of_mem _ hmem

/-! ## One line, and no longer than the table -/

/-- Of two walks from one dialect, one goes on where the other ends: a dialect has one parent. -/
theorem prefix_or_prefix {line line' : List Text} (h : (dialect :: line).IsChain (IsParent parents))
    (h' : (dialect :: line').IsChain (IsParent parents)) :
    dialect :: line <+: dialect :: line' ∨ dialect :: line' <+: dialect :: line := by
  induction line generalizing dialect line' with
  | nil => exact .inl ⟨line', rfl⟩
  | cons parent line ih =>
    cases line' with
    | nil => exact .inr ⟨parent :: line, rfl⟩
    | cons parent' line' =>
      obtain ⟨hparent, h⟩ := List.isChain_cons_cons.1 h
      obtain ⟨hparent', h'⟩ := List.isChain_cons_cons.1 h'
      obtain rfl : parent = parent' := Option.some.inj (hparent.1.symm.trans hparent'.1)
      exact (ih h h').imp (List.prefix_cons_inj _).2 (List.prefix_cons_inj _).2

namespace Ancestry

variable {line line' : List Text}

/-- An ancestry goes on for as long as it can, so that no other one goes on from it. -/
theorem eq_of_prefix (h : Ancestry parents dialect line) (h' : Ancestry parents dialect line')
    (hbegins : line <+: line') : line = line' := by
  obtain ⟨more, rfl⟩ := hbegins
  cases more with
  | nil => rw [List.append_nil]
  | cons next more =>
    obtain ⟨last, hlast⟩ : ∃ last, line.getLast? = some last := by
      rw [← Option.isSome_iff_exists, List.getLast?_isSome]
      rintro rfl
      exact nomatch h.begins
    have hnext : IsParent parents last next := (List.isChain_append.1 h'.linked).2.2 last hlast next rfl
    exact absurd rfl ((List.nodup_append.1 h'.nodup).2.2 next (h.ends last hlast next hnext) next List.mem_cons_self)

theorem unique (h : Ancestry parents dialect line) (h' : Ancestry parents dialect line') : line = line' := by
  obtain ⟨rest, rfl⟩ := List.head?_eq_some_iff.1 h.begins
  obtain ⟨rest', rfl⟩ := List.head?_eq_some_iff.1 h'.begins
  rcases prefix_or_prefix h.linked h'.linked with hbegins | hbegins
  · exact h.eq_of_prefix h' hbegins
  · exact (h'.eq_of_prefix h hbegins).symm

end Ancestry

/-- The walk visits no more than there is to visit. -/
theorem length_ancestors_le (parents : Parents) (visited : List Text) (dialect : Text) :
    (ancestors parents visited dialect).length ≤ (unvisited parents visited).length := by
  obtain ⟨parent, hparent, hnew, hgoes⟩ | ⟨-, hends⟩ := ancestors_cases parents visited dialect
  · have hlt := hparent.length_unvisited_lt hnew
    have hle := length_ancestors_le parents (parent :: visited) parent
    rw [hgoes, List.length_cons]
    omega
  · rw [hends]
    exact Nat.zero_le _
termination_by (unvisited parents visited).length

/-- A chain is longer than the table by one dialect at most. -/
theorem length_chain_le (dialect : Text) (declared : Parents) :
    (chain dialect declared).length ≤ (overlay declared).size + 1 := by
  have hunvisited : (unvisited (overlay declared) [dialect]).length ≤ (overlay declared).size :=
    (List.length_filter_le _ _).trans (List.length_map _).le
  exact Nat.succ_le_succ ((length_ancestors_le _ _ _).trans hunvisited)

/-! ## The table -/

/-- From the start every dialect but the two roots extends the root of its family. -/
theorem get?_builtinParents_eq_some_iff :
    builtinParents.get? (.text dialect) = some parent ↔
      isKnown dialect = true ∧ dialect ≠ parent ∧ parent = (family dialect).root := by
  have hmarkup : ∀ d ∈ markupDialects, (d ∈ markupDialects.drop 1 ↔ d ≠ Family.markup.root) ∧ family d = .markup := by
    decide
  have hstyle : ∀ d ∈ stylesheetDialects,
      (d ∈ stylesheetDialects.drop 1 ↔ d ≠ Family.stylesheet.root) ∧ family d = .stylesheet := by
    decide
  rw [builtinParents, Dict.get?_ofList_eq_some_iff_mem (by decide), isKnown, Bool.or_eq_true, List.contains_iff_mem,
    List.contains_iff_mem]
  simp only [List.mem_append, List.mem_map]
  constructor
  · rintro ⟨_, ⟨d, hd, rfl⟩ | ⟨d, hd, rfl⟩, heq, rfl⟩ <;> obtain rfl := Scalar.text_beq_iff.1 heq
    · obtain ⟨hroot, hfamily⟩ := hmarkup d (List.mem_of_mem_drop hd)
      exact ⟨.inl (List.mem_of_mem_drop hd), hroot.1 hd, by rw [hfamily]⟩
    · obtain ⟨hroot, hfamily⟩ := hstyle d (List.mem_of_mem_drop hd)
      exact ⟨.inr (List.mem_of_mem_drop hd), hroot.1 hd, by rw [hfamily]⟩
  · rintro ⟨hd | hd, hne, rfl⟩
    · obtain ⟨hroot, hfamily⟩ := hmarkup dialect hd
      rw [hfamily] at hne ⊢
      exact ⟨_, .inl ⟨dialect, hroot.2 hne, rfl⟩, Scalar.text_beq_iff.2 rfl, rfl⟩
    · obtain ⟨hroot, hfamily⟩ := hstyle dialect hd
      rw [hfamily] at hne ⊢
      exact ⟨_, .inr ⟨dialect, hroot.2 hne, rfl⟩, Scalar.text_beq_iff.2 rfl, rfl⟩

/-- **The chain of a dialect is its ancestry and the only one**, whatever parents are declared, in cycles
or not: it begins with the dialect, goes from each dialect to its parent, has none twice, and ends where
there is no parent, a blank one, or one that it has. The parents are the declared ones, and where none is
declared the root of the family. The chain is longer than the table by one dialect at most. -/
theorem ancestry_iff_eq_chain (dialect : Text) (declared : Parents) :
    (∀ line, Ancestry (overlay declared) dialect line ↔ line = chain dialect declared) ∧
    (chain dialect declared).length ≤ (overlay declared).size + 1 ∧
    ∀ child parent, (overlay declared).get? (.text child) = some parent ↔
      declared.get? (.text child) = some parent ∨
        declared.get? (.text child) = none ∧
          isKnown child = true ∧ child ≠ parent ∧ parent = (family child).root := by
  refine ⟨fun line => ?_, length_chain_le dialect declared, fun child parent => ?_⟩
  · constructor
    · exact fun h => h.unique (ancestry_chain dialect declared)
    · rintro rfl
      exact ancestry_chain dialect declared
  · rw [overlay, Dict.get?_update, Option.or_eq_some_iff, get?_builtinParents_eq_some_iff]

/-- A cycle through a built-in dialect that is entered from outside: the walk ends before it would come
to `scss` again. -/
example :
    chain "mine".toList (.ofList [(.text "mine".toList, "scss".toList), (.text "css".toList, "scss".toList)]) =
      ["mine".toList, "scss".toList, "css".toList] := by
  decide +kernel

/-! ## Two tables -/

/-- Walks along two tables that say the same of every dialect on the way of one of them. -/
theorem ancestors_congr {parents' : Parents} {visited : List Text} {dialect : Text}
    (h : ∀ d ∈ dialect :: ancestors parents visited dialect, parents.get? (.text d) = parents'.get? (.text d)) :
    ancestors parents' visited dialect = ancestors parents visited dialect := by
  have hiff (parent : Text) : IsParent parents' dialect parent ↔ IsParent parents dialect parent := by
    rw [IsParent, IsParent, h dialect List.mem_cons_self]
  obtain ⟨parent, hparent, hnew, hgoes⟩ | ⟨hall, hends⟩ := ancestors_cases parents visited dialect
  · have hlt := hparent.length_unvisited_lt hnew
    rw [hgoes] at h ⊢
    rw [ancestors_eq_cons ((hiff parent).2 hparent) hnew,
      ancestors_congr fun d hd => h d (List.mem_cons_of_mem _ hd)]
  · rw [hends, ancestors_eq_nil fun parent hparent => hall parent ((hiff parent).1 hparent)]
termination_by (unvisited parents visited).length

/-- **Only what is declared for the dialects of a chain has a part in it.** -/
theorem chain_congr {declared declared' : Parents}
    (h : ∀ d ∈ chain dialect declared, declared.get? (.text d) = declared'.get? (.text d)) :
    chain dialect declared' = chain dialect declared := by
  have hsame : ∀ d ∈ chain dialect declared,
      (overlay declared).get? (.text d) = (overlay declared').get? (.text d) := by
    intro d hd
    rw [overlay, overlay, Dict.get?_update, Dict.get?_update, h d hd]
  exact congrArg (dialect :: ·) (ancestors_congr hsame)

end Dialect

end Shorthand
