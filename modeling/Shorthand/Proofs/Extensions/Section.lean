/-
The sections of a source of snippets. What a snapshot holds for a dialect is made of the
section of that dialect and of nothing else (`get?_collect_eq_some_iff`).

`section_confined` follows a section into two snapshots: whatever is done to it, a dialect
that does not have it in its chain sees the same as before.
-/
import Mathlib
import Shorthand.Proofs.Data.LastEntry
import Shorthand.Proofs.Extensions.Loading
import Shorthand.Proofs.Extensions.Nearest

namespace Shorthand

namespace Extensions

open Data Dialect Files

variable {source source' : Mapping} {name key : Text}

/-! ## What a section gives a snapshot -/

/-- The section of a dialect: the mapping that the source has under its name. That of the
global variables is none. -/
def IsSection (source : Mapping) (name : Text) (s : Mapping) : Prop :=
  name ≠ "variables".toList ∧ (source.get? (.text name)).bind (·.mapping?) = some s

theorem mem_sections {k : Scalar} {s : Mapping} :
    (k, s) ∈ sections source ↔
      k ≠ .text "variables".toList ∧ ∃ v, (k, v) ∈ source.entries ∧ v.mapping? = some s := by
  rw [sections, List.mem_filterMap]
  constructor
  · rintro ⟨⟨k', v⟩, he, h⟩
    obtain ⟨hk, h⟩ := Option.ite_none_left_eq_some.1 h
    obtain ⟨s', hs', heq⟩ := Option.map_eq_some_iff.1 h
    cases heq
    exact ⟨hk, v, he, hs'⟩
  · rintro ⟨hk, v, he, hs⟩
    exact ⟨(k, v), he, by simp only [if_neg hk, hs, Option.map_some]⟩

theorem isSection_iff_mem {s : Mapping} : IsSection source name s ↔ (.text name, s) ∈ sections source := by
  rw [mem_sections, IsSection, ne_eq, ne_eq, Scalar.text.injEq]
  refine and_congr_right fun _ => ?_
  simp only [Option.bind_eq_some_iff, Dict.get?_eq_some_iff_mem, Scalar.beq_text_iff]
  constructor
  · rintro ⟨v, ⟨⟨k, v⟩, he, rfl, rfl⟩, hs⟩
    exact ⟨v, he, hs⟩
  · rintro ⟨v, he, hs⟩
    exact ⟨v, ⟨(.text name, v), he, rfl, rfl⟩, hs⟩

theorem pairwise_sections (source : Mapping) :
    (sections source).Pairwise fun a b => (a.1 == b.1) = false := by
  refine source.distinct.filterMap _ fun e e' hne p hp p' hp' => ?_
  obtain ⟨-, hp⟩ := Option.ite_none_left_eq_some.1 hp
  obtain ⟨-, hp'⟩ := Option.ite_none_left_eq_some.1 hp'
  obtain ⟨s, -, rfl⟩ := Option.map_eq_some_iff.1 hp
  obtain ⟨s', -, rfl⟩ := Option.map_eq_some_iff.1 hp'
  exact hne

/-- **A snapshot has for a dialect what the section of the dialect gives.** -/
theorem get?_collect_eq_some_iff {α : Type} {use : Scalar → Value → Option α} {a : α} :
    (collect source key use).get? (.text name) = some a ↔
      ∃ s, IsSection source name s ∧ (s.get? (.text key)).bind (use (.text name)) = some a := by
  have hapart : ((sections source).filterMap fun p =>
      ((p.2.get? (.text key)).bind (use p.1)).map (p.1, ·)).Pairwise fun a b => (a.1 == b.1) = false := by
    refine (pairwise_sections source).filterMap _ fun p p' hne e he e' he' => ?_
    obtain ⟨a, -, rfl⟩ := Option.map_eq_some_iff.1 he
    obtain ⟨a', -, rfl⟩ := Option.map_eq_some_iff.1 he'
    exact hne
  rw [collect, Dict.get?_ofList_eq_some_iff_mem hapart]
  simp only [List.mem_filterMap, Option.map_eq_some_iff, Scalar.beq_text_iff]
  constructor
  · rintro ⟨e, ⟨⟨k, s⟩, hs, a, ha, rfl⟩, rfl, rfl⟩
    exact ⟨s, isSection_iff_mem.2 hs, ha⟩
  · rintro ⟨s, hs, ha⟩
    exact ⟨(.text name, a), ⟨(.text name, s), isSection_iff_mem.1 hs, a, ha, rfl⟩, rfl, rfl⟩

theorem get?_collect_congr {α : Type} {use : Scalar → Value → Option α}
    (h : source.get? (.text name) = source'.get? (.text name)) :
    (collect source key use).get? (.text name) = (collect source' key use).get? (.text name) := by
  ext a
  simp only [get?_collect_eq_some_iff, IsSection, h]

/-! ## Sections that cannot be loaded -/

/-- A section has a snippet whose key is an integer of too many digits to be written. -/
def HasLongKey (s : Mapping) : Prop :=
  ∃ snippets key t, (s.get? (.text "snippets".toList)).bind (·.mapping?) = some snippets ∧
    (key, Value.text t) ∈ snippets.entries ∧ key.isTooLong = true

theorem text?_eq_some_iff {v : Value} {t : Text} : v.text? = some t ↔ v = .text t := by
  constructor
  · intro h
    cases v with
    | scalar s =>
      cases s with
      | text t' => exact congrArg Value.text (Option.some.inj h)
      | null | bool | int | float | date | moment | bytes => cases h
    | list | set | mapping => cases h
  · rintro rfl
    rfl

theorem hasLongKey_iff : hasLongKey source = true ↔ ∃ p ∈ sections source, HasLongKey p.2 := by
  rw [hasLongKey, List.any_eq_true]
  refine exists_congr fun p => and_congr_right fun _ => ?_
  simp only [List.any_eq_true, Bool.and_eq_true, Option.isSome_iff_exists, text?_eq_some_iff, HasLongKey]
  constructor
  · rintro ⟨⟨key, v⟩, he, hlong, t, rfl⟩
    cases hsnippets : (p.2.get? (.text "snippets".toList)).bind (·.mapping?) with
    | none =>
      rw [hsnippets] at he
      cases he
    | some snippets =>
      rw [hsnippets] at he
      exact ⟨snippets, key, t, rfl, he, hlong⟩
  · rintro ⟨snippets, key, t, hsnippets, he, hlong⟩
    rw [hsnippets]
    exact ⟨(key, .text t), he, hlong, t, rfl⟩

/-! ## Sources that differ in one section -/

/-- Two sources that have the same under every key but the name of one dialect. -/
def DifferOnlyIn (name : Text) (source source' : Mapping) : Prop :=
  ∀ key, (key == .text name) = false → source.get? key = source'.get? key

theorem DifferOnlyIn.get?_text {name' : Text} (h : DifferOnlyIn name source source') (hne : name' ≠ name) :
    source.get? (.text name') = source'.get? (.text name') := by
  refine h _ ?_
  rw [Bool.eq_false_iff, ne_eq, Scalar.text_beq_iff]
  exact hne

/-- A dialect that does not have the changed section in its chain sees two snapshots alike. -/
theorem DifferOnlyIn.snapshots_alike {d : Path} {n n' : Nat} {profiles profiles' : Mapping} {dialect : Text}
    (h : DifferOnlyIn name source source') (hname : name ≠ "variables".toList)
    (hline : name ∉ chain dialect (snapshotOf n d source profiles).parents) :
    chain dialect (snapshotOf n' d source' profiles').parents =
      chain dialect (snapshotOf n d source profiles).parents ∧
    (snapshotOf n' d source' profiles').resolveSnippets dialect =
      (snapshotOf n d source profiles).resolveSnippets dialect ∧
    (snapshotOf n' d source' profiles').resolveVariables dialect =
      (snapshotOf n d source profiles).resolveVariables dialect := by
  have hline : ∀ x ∈ chain dialect (snapshotOf n d source profiles).parents,
      source.get? (.text x) = source'.get? (.text x) := by
    intro x hx
    refine h.get?_text ?_
    rintro rfl
    exact hline hx
  have hchain : chain dialect (snapshotOf n' d source' profiles').parents =
      chain dialect (snapshotOf n d source profiles).parents :=
    chain_congr fun x hx => get?_collect_congr (hline x hx)
  have hline : ∀ x ∈ (chain dialect (snapshotOf n d source profiles).parents).reverse,
      source'.get? (.text x) = source.get? (.text x) :=
    fun x hx => (hline x (List.mem_reverse.1 hx)).symm
  refine ⟨hchain, ?_, ?_⟩
  · rw [Snapshot.resolveSnippets, Snapshot.resolveSnippets, Snapshot.lineage, Snapshot.lineage, hchain]
    exact congrArg some (Snapshot.inherit_congr _ _ fun x hx => get?_collect_congr (hline x hx))
  · have hvars : (snapshotOf n' d source' profiles').vars = (snapshotOf n d source profiles).vars := by
      rw [snapshotOf, snapshotOf, h.get?_text hname.symm]
    rw [Snapshot.resolveVariables, Snapshot.resolveVariables, Snapshot.lineage, Snapshot.lineage, hchain, hvars]
    exact Snapshot.inherit_congr _ _ fun x hx => get?_collect_congr (hline x hx)

/-- When the one source can be loaded, it is the changed section alone that may keep the
other one from being loaded. -/
theorem DifferOnlyIn.hasLongKey_iff (h : DifferOnlyIn name source source')
    (hshort : hasLongKey source = false) :
    hasLongKey source' = true ↔ ∃ s, IsSection source' name s ∧ HasLongKey s := by
  rw [Extensions.hasLongKey_iff]
  constructor
  · rintro ⟨⟨k, s⟩, hs, hlong⟩
    by_cases hk : (k == .text name) = true
    · obtain rfl := Scalar.beq_text_iff.1 hk
      exact ⟨s, isSection_iff_mem.2 hs, hlong⟩
    · obtain ⟨hvariables, v, he, hv⟩ := mem_sections.1 hs
      have hget : source.get? k = some v := by
        rw [h k (by simpa using hk)]
        exact Dict.get?_of_mem he
      obtain ⟨⟨k', v'⟩, he', hk', rfl⟩ := Dict.mem_of_get? hget
      have hvariables' : k' ≠ .text "variables".toList := by
        rintro rfl
        exact hvariables (Scalar.beq_text_iff.1 (BEq.symm hk'))
      have hlong' : hasLongKey source = true :=
        Extensions.hasLongKey_iff.2 ⟨(k', s), mem_sections.2 ⟨hvariables', v', he', hv⟩, hlong⟩
      rw [hshort] at hlong'
      cases hlong'
  · rintro ⟨s, hs, hlong⟩
    exact ⟨(.text name, s), isSection_iff_mem.1 hs, hlong⟩

/-- **A section is seen by its heirs only.** Two sources of snippets differ in nothing but the
section of one dialect, in any way, and are loaded with the same profiles. When the first can be
loaded, so can the second, unless that section has a key that cannot be written; and every dialect
whose chain in the first snapshot is without the dialect of the section has the same chain, the
same snippets and the same variables in the second. -/
theorem section_confined {readers : Readers} {tree tree' : Tree} {d : Path} {n m : Nat}
    {problem problem' : Option Problem} {s : Snapshot} {problems : List Problem}
    (hsource : readSource readers tree d snippetsName = .ok (source, problem))
    (hsource' : readSource readers tree' d snippetsName = .ok (source', problem'))
    (hprofiles : readSource readers tree' d profilesName = readSource readers tree d profilesName)
    (hname : name ≠ "variables".toList) (hdiffer : DifferOnlyIn name source source')
    (hload : load readers tree d n = .ok (s, problems)) :
    ((∃ loaded, load readers tree' d m = .ok loaded) ↔
      ∀ changed, IsSection source' name changed → ¬ HasLongKey changed) ∧
    ∀ s' problems', load readers tree' d m = .ok (s', problems') →
      s'.profiles = s.profiles ∧
      ∀ dialect, name ∉ chain dialect s.parents →
        chain dialect s'.parents = chain dialect s.parents ∧
        s'.resolveSnippets dialect = s.resolveSnippets dialect ∧
        s'.resolveVariables dialect = s.resolveVariables dialect := by
  obtain ⟨read, profiles, hread, hprofile, hcombine⟩ := exists_read_of_load hload
  rw [hsource, Except.ok.injEq] at hread
  subst hread
  have hload' := load_of_read hsource' (hprofiles.trans hprofile) m
  rw [combine] at hcombine hload'
  split at hcombine
  next => cases hcombine
  next hshort =>
    cases hcombine
    have hlong := hdiffer.hasLongKey_iff (by simpa using hshort)
    refine ⟨?_, ?_⟩
    · rw [hload']
      split
      next h =>
        obtain ⟨changed, hchanged, hkey⟩ := hlong.1 h
        constructor
        · rintro ⟨loaded, hloaded⟩
          cases hloaded
        · exact fun hall => absurd hkey (hall changed hchanged)
      next h =>
        exact ⟨fun _ changed hchanged hkey => h (hlong.2 ⟨changed, hchanged, hkey⟩), fun _ => ⟨_, rfl⟩⟩
    · intro s' problems' h
      rw [hload'] at h
      split at h
      next => cases h
      next =>
        cases h
        exact ⟨rfl, fun dialect hline => hdiffer.snapshots_alike hname hline⟩

/-- The directory `/d` with a source of snippets in JSON. -/
def snippetsTree (source : String) : Tree :=
  Tree.empty.write ⟨.single, [['d'], "snippets.json".toList]⟩ (Text.utf8 source.toList)

/-- A directory in which the dialect `a` extends `b`. -/
def heirTree : Tree := snippetsTree "\x7b\"a\": \x7b\"extends\": \"b\"\x7d, \"b\": \x7b\"snippets\": \x7b\"p\": \"\"\x7d\x7d\x7d"

/-- The same directory with `a` extending itself, and its section behind the other one. -/
def loopTree : Tree := snippetsTree "\x7b\"b\": \x7b\"snippets\": \x7b\"p\": \"\"\x7d\x7d, \"a\": \x7b\"extends\": \"a\"\x7d\x7d"

/-- What a dialect of these directories extends. -/
def extending (parent : Text) : Value := .mapping [(.text "extends".toList, .text parent)]

def sectionOfB : Value := .mapping [(.text "snippets".toList, .mapping [(.text ['p'], .text [])])]

theorem readSource_heirTree :
    readSource .standard heirTree ⟨.single, [['d']]⟩ snippetsName =
      .ok (.ofList [(.text ['a'], extending ['b']), (.text ['b'], sectionOfB)], none) := by
  cbv

theorem readSource_loopTree :
    readSource .standard loopTree ⟨.single, [['d']]⟩ snippetsName =
      .ok (.ofList [(.text ['b'], sectionOfB), (.text ['a'], extending ['a'])], none) := by
  cbv

/-- The dialect `a` comes to extend itself: `b`, which it extended, sees the same as before. -/
theorem section_confined_loop :
    ∃ source source' s s' problems problems',
      readSource .standard heirTree ⟨.single, [['d']]⟩ snippetsName = .ok (source, none) ∧
      readSource .standard loopTree ⟨.single, [['d']]⟩ snippetsName = .ok (source', none) ∧
      readSource .standard loopTree ⟨.single, [['d']]⟩ profilesName =
        readSource .standard heirTree ⟨.single, [['d']]⟩ profilesName ∧
      ['a'] ≠ "variables".toList ∧ DifferOnlyIn ['a'] source source' ∧
      load .standard heirTree ⟨.single, [['d']]⟩ 1 = .ok (s, problems) ∧
      load .standard loopTree ⟨.single, [['d']]⟩ 2 = .ok (s', problems') ∧
      ['a'] ∉ chain ['b'] s.parents ∧ s'.resolveSnippets ['b'] = s.resolveSnippets ['b'] := by
  let source : Mapping := .ofList [(.text ['a'], extending ['b']), (.text ['b'], sectionOfB)]
  let source' : Mapping := .ofList [(.text ['b'], sectionOfB), (.text ['a'], extending ['a'])]
  have hnone : readSource .standard heirTree ⟨.single, [['d']]⟩ profilesName = .ok ({}, none) := by cbv
  have hnone' : readSource .standard loopTree ⟨.single, [['d']]⟩ profilesName = .ok ({}, none) := by cbv
  have hdiffer : DifferOnlyIn ['a'] source source' := by
    intro key hkey
    have hchanged : (Scalar.text ['a'] == key) = false := by rw [BEq.comm, hkey]
    cases hb : Scalar.text ['b'] == key <;>
      simp [source, source', Dict.ofList, Dict.get?_insertAll_eq, hchanged, hb]
  have hload : load .standard heirTree ⟨.single, [['d']]⟩ 1 =
      .ok (snapshotOf 1 ⟨.single, [['d']]⟩ source {}, []) := by
    rw [load_of_read readSource_heirTree hnone, combine, if_neg (by decide)]
    rfl
  have hshort : ∀ s, IsSection source' ['a'] s → ¬ HasLongKey s := by
    rintro s ⟨-, hs⟩ ⟨snippets, key, t, hsnippets, -⟩
    cases hs
    cases hsnippets
  obtain ⟨hsecond, halike⟩ := section_confined (m := 2) readSource_heirTree readSource_loopTree
    (hnone'.trans hnone.symm) (by decide) hdiffer hload
  obtain ⟨⟨s', problems'⟩, hload'⟩ := hsecond.2 hshort
  have hline : ['a'] ∉ chain ['b'] (snapshotOf 1 ⟨.single, [['d']]⟩ source {}).parents := by decide +kernel
  exact ⟨source, source', _, s', _, problems', readSource_heirTree, readSource_loopTree,
    hnone'.trans hnone.symm, by decide, hdiffer, hload, hload', hline,
    ((halike s' problems' hload').2 _ hline).2.1⟩

end Extensions

end Shorthand
