/-
The two sources of a directory, each on its own: which of its files counts, what that file
contributes to a snapshot, and what is reported of it.

`sources_apart` says that a load puts the two contributions together and lets neither touch the
other, and exactly when there is no snapshot to put them into.
-/
import Shorthand.Proofs.Extensions.Section

namespace Shorthand.Extensions

open Data Files

variable {readers : Readers} {tree tree' : Tree} {d : Path} {name : Text}

/-! ## The file that counts -/

/-- The first of the files a source may be that is there, and its content, or why that may not be read.
No other file of the source counts, whatever is in this one. -/
def Counts (tree : Tree) (d : Path) (name : Text) (file : Path) (ending : Text)
    (content : Except AccessFault Text.Bytes) : Prop :=
  tree.isFile file = true ∧ tree.read file = content ∧
  ∃ before after, sourceFiles d name = before ++ (file, ending) :: after ∧
    ∀ other ∈ before, tree.isFile other.1 = false

/-- A file of a source cannot be looked for because its name is too long, and none of those before
it is there. -/
def LongName (tree : Tree) (d : Path) (name : Text) : Prop :=
  ∃ file ending, FirstFile tree d name file ending ∧ tree.isTooLong file = true

/-- A file is read, unless it may not be. -/
theorem read_of_isFile {file : Path} (h : tree.isFile file = true) :
    (∃ content, tree.read file = .ok content) ∨ tree.read file = .error .denied := by
  rw [Tree.isFile] at h
  rw [Tree.read]
  split at h
  next content hfind => exact .inl ⟨content, by rw [hfind]⟩
  next hfind => exact .inr (by rw [hfind])
  next => cases h

theorem counts_iff {file : Path} {ending : Text} {content : Except AccessFault Text.Bytes} :
    Counts tree d name file ending content ↔
      (sourceFiles d name).find? (fun f => tree.isFile f.1) = some (file, ending) ∧
        tree.read file = content := by
  rw [Counts, List.find?_eq_some_iff_append]
  simp only [Bool.not_eq_true']
  exact ⟨fun ⟨hthere, hread, hfirst⟩ => ⟨⟨hthere, hfirst⟩, hread⟩,
    fun ⟨⟨hthere, hfirst⟩, hread⟩ => ⟨hthere, hread, hfirst⟩⟩

theorem exists_counts {f : Path × Text} (hf : f ∈ sourceFiles d name) (h : tree.isFile f.1 = true) :
    ∃ file ending, Counts tree d name file ending (tree.read file) := by
  cases hfind : (sourceFiles d name).find? fun f => tree.isFile f.1 with
  | none => exact absurd h (List.find?_eq_none.1 hfind f hf)
  | some found => exact ⟨found.1, found.2, counts_iff.2 ⟨hfind, rfl⟩⟩

/-- Where no name is too long the file of a source is the first that is there. -/
theorem sourceFile?_of_short (h : ¬ LongName tree d name) :
    sourceFile? tree d name = .ok ((sourceFiles d name).find? fun f => tree.isFile f.1) := by
  cases hfile : sourceFile? tree d name with
  | error why =>
    obtain ⟨file, ending, hfirst, hlong, -⟩ := sourceFile?_eq_error_iff.1 hfile
    exact absurd ⟨file, ending, hfirst, hlong⟩ h
  | ok found =>
    refine congrArg Except.ok (Eq.symm ?_)
    cases found with
    | none =>
      rw [List.find?_eq_none]
      intro f hf hthere
      rw [sourceFile?] at hfile
      split at hfile
      next hnone => exact List.find?_eq_none.1 hnone f hf (by simp [hthere])
      next => split at hfile <;> cases hfile
    | some f =>
      obtain ⟨⟨hthere, before, after, hsplit, hbefore⟩, hshort⟩ := sourceFile?_eq_some_iff.1 hfile
      rw [hshort] at hthere
      refine List.find?_eq_some_iff_append.2 ⟨by simpa using hthere, before, after, hsplit, fun other hother => ?_⟩
      rw [(hbefore other hother).1]
      rfl

/-! ## What a source contributes -/

/-- The content of a file is UTF-8 and has a value. -/
def Reads (readers : Readers) (ending : Text) (content : Text.Bytes) (v : Value) : Prop :=
  ∃ t, Text.ofUtf8? content = some t ∧ readers.ofExtension ending (Text.unifyLineBreaks t) = .ok v

/-- What a source contributes to a snapshot, and what is reported of it: only a mapping
contributes, and a source that is missing or blank is no problem. -/
inductive Contributes (readers : Readers) (tree : Tree) (d : Path) (name : Text) : Mapping → Option Problem → Prop
  | missing (h : ∀ f ∈ sourceFiles d name, tree.isFile f.1 = false) : Contributes readers tree d name {} none
  | blank {file : Path} {ending : Text} {content : Text.Bytes} (counts : Counts tree d name file ending (.ok content))
      (reads : Reads readers ending content .null) : Contributes readers tree d name {} none
  | denied {file : Path} {ending : Text} (counts : Counts tree d name file ending (.error .denied)) :
      Contributes readers tree d name {} (some (.unreadable file (some (AccessFault.denied.message file))))
  | unreadable {file : Path} {ending : Text} {content : Text.Bytes} (counts : Counts tree d name file ending (.ok content))
      (h : ∀ v, ¬ Reads readers ending content v) :
      Contributes readers tree d name {} (some (.unreadable file (readers.complaint? ending content)))
  | notMapping {file : Path} {ending : Text} {content : Text.Bytes} {v : Value}
      (counts : Counts tree d name file ending (.ok content)) (reads : Reads readers ending content v)
      (h : v.mapping? = none) (notBlank : v ≠ .null) :
      Contributes readers tree d name {} (some (.notMapping file v.typeName))
  | mapping {file : Path} {ending : Text} {content : Text.Bytes} {v : Value} {m : Mapping}
      (counts : Counts tree d name file ending (.ok content)) (reads : Reads readers ending content v)
      (h : v.mapping? = some m) : Contributes readers tree d name m none

/-- Readers that have a value for a text, or else find that it does not follow its format. -/
def Readers.Plain (readers : Readers) : Prop :=
  ∀ t why, readers.json t ≠ .error (.obstacle why) ∧ readers.yaml t ≠ .error (.obstacle why)

theorem Readers.Plain.ofExtension_ne (h : readers.Plain) (ending t : Text) (why : Obstacle) :
    readers.ofExtension ending t ≠ .error (.obstacle why) := by
  rw [Readers.ofExtension]
  split
  · exact (h t why).1
  · exact (h t why).2

section File

variable {file : Path} {ending : Text} {content : Text.Bytes} {v : Value}

theorem readContent_eq_ok_iff : readContent readers ending content = .ok v ↔ Reads readers ending content v := by
  rw [readContent, Reads]
  cases Text.ofUtf8? content with
  | none => simp
  | some t => simp

theorem Readers.Plain.readContent_ne (hplain : readers.Plain) (why : Obstacle) :
    readContent readers ending content ≠ .error (.obstacle why) := by
  intro h
  rw [readContent] at h
  split at h
  next => cases h
  next t _ => exact hplain.ofExtension_ne ending (Text.unifyLineBreaks t) why h

theorem readFile_of_reads (hread : tree.read file = .ok content) (h : Reads readers ending content v) :
    readFile readers tree file ending = .ok v :=
  readFile_eq_ok_iff.2 ⟨content, hread, readContent_eq_ok_iff.2 h⟩

theorem Readers.Plain.readFile_of_not_reads (hplain : readers.Plain) (hread : tree.read file = .ok content)
    (h : ∀ v, ¬ Reads readers ending content v) :
    readFile readers tree file ending = .error (.refused (readers.complaint? ending content)) := by
  rw [readFile_of_read hread]
  cases hvalue : readContent readers ending content with
  | ok v => exact absurd (readContent_eq_ok_iff.1 hvalue) (h v)
  | error why =>
    cases why with
    | malformed => rfl
    | obstacle why => exact absurd hvalue (hplain.readContent_ne why)

end File

theorem isNull_iff {v : Value} : v.isNull = true ↔ v = .null := by
  constructor
  · intro h
    cases v with
    | scalar s =>
      cases s with
      | null => rfl
      | text | bool | int | float | date | moment | bytes => cases h
    | list | set | mapping => cases h
  · rintro rfl
    rfl

section Counting

variable {file : Path} {ending : Text} {content : Except AccessFault Text.Bytes}

/-- A source is read from the file that counts. -/
theorem readSource_of_counts (hshort : ¬ LongName tree d name) (h : Counts tree d name file ending content) :
    readSource readers tree d name = match readFile readers tree file ending with
      | .error (.refused why) => .ok ({}, some (.unreadable file why))
      | .error (.obstacle why) => .error (.obstacle why)
      | .ok v => match v.mapping? with
        | some m => .ok (m, none)
        | none => .ok ({}, if v.isNull then none else some (.notMapping file v.typeName)) := by
  have hfile := sourceFile?_of_short hshort
  rw [(counts_iff.1 h).1] at hfile
  rw [readSource]
  generalize sourceFile? tree d name = found at hfile ⊢
  subst hfile
  rfl

theorem readSource_of_missing (hshort : ¬ LongName tree d name)
    (h : ∀ f ∈ sourceFiles d name, tree.isFile f.1 = false) :
    readSource readers tree d name = .ok ({}, none) := by
  have hnone : (sourceFiles d name).find? (fun f => tree.isFile f.1) = none :=
    List.find?_eq_none.2 fun f hf => by simp [h f hf]
  rw [readSource, sourceFile?_of_short hshort, hnone]

end Counting

theorem Contributes.readSource_eq {m : Mapping} {problem : Option Problem} (hplain : readers.Plain)
    (hshort : ¬ LongName tree d name) (h : Contributes readers tree d name m problem) :
    readSource readers tree d name = .ok (m, problem) := by
  cases h with
  | missing h => exact readSource_of_missing hshort h
  | blank counts reads =>
    rw [readSource_of_counts hshort counts, readFile_of_reads counts.2.1 reads]
    rfl
  | denied counts => rw [readSource_of_counts hshort counts, readFile_of_fault counts.2.1]
  | unreadable counts h =>
    rw [readSource_of_counts hshort counts, hplain.readFile_of_not_reads counts.2.1 h]
  | notMapping counts reads h notBlank =>
    rw [readSource_of_counts hshort counts, readFile_of_reads counts.2.1 reads]
    simp only [h, if_neg (mt isNull_iff.1 notBlank)]
  | mapping counts reads h =>
    rw [readSource_of_counts hshort counts, readFile_of_reads counts.2.1 reads]
    simp only [h]

/-- Every source contributes something, if only nothing. -/
theorem exists_contributes (readers : Readers) (tree : Tree) (d : Path) (name : Text) :
    ∃ m problem, Contributes readers tree d name m problem := by
  by_cases hmissing : ∀ f ∈ sourceFiles d name, tree.isFile f.1 = false
  · exact ⟨_, _, .missing hmissing⟩
  · simp only [not_forall, Bool.not_eq_false] at hmissing
    obtain ⟨f, hf, hthere⟩ := hmissing
    obtain ⟨file, ending, hcounts⟩ := exists_counts hf hthere
    rcases read_of_isFile hcounts.1 with ⟨content, hread⟩ | hdenied
    · rw [hread] at hcounts
      by_cases hvalue : ∃ v, Reads readers ending content v
      · obtain ⟨v, hreads⟩ := hvalue
        cases hm : v.mapping? with
        | some m => exact ⟨_, _, .mapping hcounts hreads hm⟩
        | none =>
          by_cases hnull : v = .null
          · rw [hnull] at hreads
            exact ⟨_, _, .blank hcounts hreads⟩
          · exact ⟨_, _, .notMapping hcounts hreads hm hnull⟩
      · exact ⟨_, _, .unreadable hcounts (not_exists.1 hvalue)⟩
    · rw [hdenied] at hcounts
      exact ⟨_, _, .denied hcounts⟩

/-- **What is read of a source is what it contributes.** -/
theorem readSource_eq_ok_iff {m : Mapping} {problem : Option Problem} (hplain : readers.Plain)
    (hshort : ¬ LongName tree d name) :
    readSource readers tree d name = .ok (m, problem) ↔ Contributes readers tree d name m problem := by
  refine ⟨fun h => ?_, Contributes.readSource_eq hplain hshort⟩
  obtain ⟨m', problem', hcontributes⟩ := exists_contributes readers tree d name
  rw [hcontributes.readSource_eq hplain hshort] at h
  cases h
  exact hcontributes

theorem Contributes.unique {m m' : Mapping} {problem problem' : Option Problem} (hplain : readers.Plain)
    (hshort : ¬ LongName tree d name) (h : Contributes readers tree d name m problem)
    (h' : Contributes readers tree d name m' problem') : m = m' ∧ problem = problem' := by
  have hread := h.readSource_eq hplain hshort
  rw [h'.readSource_eq hplain hshort] at hread
  cases hread
  exact ⟨rfl, rfl⟩

theorem readSource_of_longName (h : LongName tree d name) :
    ∃ why, readSource readers tree d name = .error why := by
  obtain ⟨file, ending, first, long⟩ := h
  exact ⟨_, readSource_eq_error_iff.2 (.nameTooLong first long)⟩

/-! ## Two sources -/

/-- The same file of a source counts in two trees, with the same content, or none does. -/
def SameSource (d : Path) (name : Text) (tree tree' : Tree) : Prop :=
  ∀ file ending content, Counts tree d name file ending content ↔ Counts tree' d name file ending content

theorem SameSource.contributes {m : Mapping} {problem : Option Problem} (hsame : SameSource d name tree tree')
    (h : Contributes readers tree d name m problem) : Contributes readers tree' d name m problem := by
  cases h with
  | missing h =>
    refine .missing fun f hf => Bool.eq_false_iff.2 fun hthere => ?_
    obtain ⟨file, ending, hcounts⟩ := exists_counts hf hthere
    obtain ⟨hthere, -, before, after, hsplit, -⟩ := (hsame file ending _).2 hcounts
    have hnone := h (file, ending) (by simp [hsplit])
    rw [hthere] at hnone
    cases hnone
  | blank counts reads => exact .blank ((hsame _ _ _).1 counts) reads
  | denied counts => exact .denied ((hsame _ _ _).1 counts)
  | unreadable counts h => exact .unreadable ((hsame _ _ _).1 counts) h
  | notMapping counts reads h notBlank => exact .notMapping ((hsame _ _ _).1 counts) reads h notBlank
  | mapping counts reads h => exact .mapping ((hsame _ _ _).1 counts) reads h

/-- What keeps a directory from being loaded with plain readers: a name that is too long to look
for, or a snippet whose key is too long to be written. -/
inductive Hindered (readers : Readers) (tree : Tree) (d : Path) : Prop
  | snippets (h : LongName tree d snippetsName)
  | profiles (h : LongName tree d profilesName)
  | key {snippets s : Mapping} {problem : Option Problem} {dialect : Scalar}
      (contributes : Contributes readers tree d snippetsName snippets problem)
      (mem : (dialect, s) ∈ sections snippets) (long : HasLongKey s)

/-- **What a load gives is put together from what its two sources contribute.** -/
theorem load_eq_ok_iff {n : Nat} {s : Snapshot} {problems : List Problem} (hplain : readers.Plain) :
    load readers tree d n = .ok (s, problems) ↔
      ¬ Hindered readers tree d ∧
      ∃ snippets profiles problem problem', Contributes readers tree d snippetsName snippets problem ∧
        Contributes readers tree d profilesName profiles problem' ∧
        s = snapshotOf n d snippets profiles ∧ problems = problem.toList ++ problem'.toList := by
  have hread {name : Text} {read : Mapping × Option Problem} (h : readSource readers tree d name = .ok read) :
      ¬ LongName tree d name := by
    intro hlong
    obtain ⟨why, hwhy⟩ := readSource_of_longName hlong
    rw [h] at hwhy
    cases hwhy
  constructor
  · intro h
    obtain ⟨⟨snippets, problem⟩, ⟨profiles, problem'⟩, hs, hp, hcombine⟩ := exists_read_of_load h
    have hsnippets := (readSource_eq_ok_iff hplain (hread hs)).1 hs
    have hprofiles := (readSource_eq_ok_iff hplain (hread hp)).1 hp
    rw [combine] at hcombine
    split at hcombine
    next => cases hcombine
    next hshort =>
      cases hcombine
      refine ⟨fun hhindered => ?_, snippets, profiles, problem, problem', hsnippets, hprofiles, rfl, rfl⟩
      cases hhindered with
      | snippets h => exact hread hs h
      | profiles h => exact hread hp h
      | key contributes mem long =>
        have hs' := (readSource_eq_ok_iff hplain (hread hs)).2 contributes
        rw [hs] at hs'
        cases hs'
        exact hshort (hasLongKey_iff.2 ⟨_, mem, long⟩)
  · rintro ⟨hfree, snippets, profiles, problem, problem', hsnippets, hprofiles, rfl, rfl⟩
    have hs := (readSource_eq_ok_iff hplain fun h => hfree (.snippets h)).2 hsnippets
    have hp := (readSource_eq_ok_iff hplain fun h => hfree (.profiles h)).2 hprofiles
    rw [load_of_read hs hp, combine, if_neg]
    intro hlong
    obtain ⟨_, mem, long⟩ := hasLongKey_iff.1 hlong
    exact hfree (.key hsnippets mem long)

theorem load_eq_error_iff_hindered {n : Nat} (hplain : readers.Plain) :
    (∃ why, load readers tree d n = .error why) ↔ Hindered readers tree d := by
  constructor
  · rintro ⟨why, h⟩
    by_contra hfree
    obtain ⟨snippets, problem, hsnippets⟩ := exists_contributes readers tree d snippetsName
    obtain ⟨profiles, problem', hprofiles⟩ := exists_contributes readers tree d profilesName
    have hload := (load_eq_ok_iff (n := n) hplain).2
      ⟨hfree, snippets, profiles, problem, problem', hsnippets, hprofiles, rfl, rfl⟩
    rw [h] at hload
    cases hload
  · intro hhindered
    cases hload : load readers tree d n with
    | error why => exact ⟨why, rfl⟩
    | ok loaded => exact absurd hhindered ((load_eq_ok_iff hplain).1 hload).1

/-- **Neither source has a part in what the other one contributes.** With readers that have a value
for a text, or else find that it does not follow its format, a directory is loaded exactly when no
name and no key of a snippet is too long. The snapshot and the problems are then those of the two
sources, the snippets first: of a source the first file that is there counts, only a mapping
contributes, and one problem is reported of a file that may not be read, of one that has no value, and
of one that is neither a mapping nor blank. What else is in the directory changes nothing, nor does what
becomes of the other source. -/
theorem sources_apart {readers : Readers} (hplain : readers.Plain) (tree : Tree) (d : Path) (n : Nat) :
    ((∃ why, load readers tree d n = .error why) ↔ Hindered readers tree d) ∧
    (∀ s problems, load readers tree d n = .ok (s, problems) ↔
      ¬ Hindered readers tree d ∧
      ∃ snippets profiles problem problem', Contributes readers tree d snippetsName snippets problem ∧
        Contributes readers tree d profilesName profiles problem' ∧
        s = snapshotOf n d snippets profiles ∧ problems = problem.toList ++ problem'.toList) ∧
    ∀ s problems, load readers tree d n = .ok (s, problems) →
      (∀ problem, Contributes readers tree d snippetsName {} problem →
        s.snippets = some {} ∧ s.parents = {} ∧ s.vars = {} ∧ s.dialectVars = {}) ∧
      (∀ problem, Contributes readers tree d profilesName {} problem → s.profiles = {}) ∧
      ∀ tree' n' s' problems', load readers tree' d n' = .ok (s', problems') →
        (SameSource d snippetsName tree tree' → s'.snippets = s.snippets ∧ s'.parents = s.parents ∧
          s'.vars = s.vars ∧ s'.dialectVars = s.dialectVars) ∧
        (SameSource d profilesName tree tree' → s'.profiles = s.profiles) := by
  refine ⟨load_eq_error_iff_hindered hplain, fun _ _ => load_eq_ok_iff hplain, fun s problems hload => ?_⟩
  obtain ⟨hfree, snippets, profiles, problem, problem', hsnippets, hprofiles, rfl, rfl⟩ :=
    (load_eq_ok_iff hplain).1 hload
  refine ⟨fun _ hnone => ?_, fun _ hnone => ?_, fun tree' n' s' problems' hload' => ?_⟩
  · obtain ⟨rfl, -⟩ := hsnippets.unique hplain (fun h => hfree (.snippets h)) hnone
    exact ⟨rfl, rfl, rfl, rfl⟩
  · exact (hprofiles.unique hplain (fun h => hfree (.profiles h)) hnone).1
  · obtain ⟨hfree', snippets', profiles', _, _, hsnippets', hprofiles', rfl, rfl⟩ :=
      (load_eq_ok_iff hplain).1 hload'
    refine ⟨fun hsame => ?_, fun hsame => ?_⟩
    · obtain ⟨rfl, -⟩ :=
        (hsame.contributes hsnippets).unique hplain (fun h => hfree' (.snippets h)) hsnippets'
      exact ⟨rfl, rfl, rfl, rfl⟩
    · exact ((hsame.contributes hprofiles).unique hplain (fun h => hfree' (.profiles h)) hprofiles').1.symm

/-- The standard readers, but that an obstacle is one more way not to follow the format. -/
def Readers.forgiving : Readers where
  json t := match Json.read t with
    | .ok v => .ok v
    | .error _ => .error .malformed
  yaml t := match Yaml.read t with
    | .ok v => .ok v
    | .error _ => .error .malformed
  complaint? _ _ := none

theorem Readers.plain_forgiving : Readers.forgiving.Plain := by
  intro t why
  refine ⟨?_, ?_⟩
  · simp only [Readers.forgiving]
    split <;> exact nofun
  · simp only [Readers.forgiving]
    split <;> exact nofun

/-- The directory `/d` with a source of profiles in JSON. -/
def profilesOnly : Tree :=
  Tree.empty.write ⟨.single, [['d'], "syntaxProfiles.json".toList]⟩ (Text.utf8 "\x7b\"a\": \"\"\x7d".toList)

/-- The same directory with a source of snippets that breaks off, and another one of which the
file does not count. -/
def brokenSnippets : Tree :=
  (profilesOnly.write ⟨.single, [['d'], "snippets.json".toList]⟩ (Text.utf8 "\x7b".toList)).write
    ⟨.single, [['d'], "snippets.yml".toList]⟩ (Text.utf8 "b: {extends: c}".toList)

/-- The file of profiles that counts in both. -/
theorem counts_profiles {tree : Tree} {file : Path} {ending : Text} {content : Except AccessFault Text.Bytes}
    (hfile : (sourceFiles ⟨.single, [['d']]⟩ profilesName).find? (fun f => tree.isFile f.1) =
      some (⟨.single, [['d'], "syntaxProfiles.json".toList]⟩, ".json".toList))
    (hread : tree.read ⟨.single, [['d'], "syntaxProfiles.json".toList]⟩ = profilesOnly.read
      ⟨.single, [['d'], "syntaxProfiles.json".toList]⟩) :
    Counts tree ⟨.single, [['d']]⟩ profilesName file ending content ↔
      (file, ending) = (⟨.single, [['d'], "syntaxProfiles.json".toList]⟩, ".json".toList) ∧
        profilesOnly.read file = content := by
  rw [counts_iff, hfile, Option.some.injEq, eq_comm]
  refine and_congr_right fun h => ?_
  cases h
  rw [hread]

/-- The profiles are the same with the broken source of snippets and without any. -/
theorem sources_apart_broken :
    Readers.forgiving.Plain ∧ SameSource ⟨.single, [['d']]⟩ profilesName brokenSnippets profilesOnly ∧
    ∃ s s' problem,
      load .forgiving brokenSnippets ⟨.single, [['d']]⟩ 1 = .ok (s, [problem]) ∧
      problem = .unreadable ⟨.single, [['d'], "snippets.json".toList]⟩ none ∧ s.parents = {} ∧
      load .forgiving profilesOnly ⟨.single, [['d']]⟩ 2 = .ok (s', []) ∧ s'.profiles = s.profiles := by
  let profiles : Mapping := .ofList [(.text ['a'], .text [])]
  have hload : load .forgiving brokenSnippets ⟨.single, [['d']]⟩ 1 =
      .ok (snapshotOf 1 ⟨.single, [['d']]⟩ {} profiles,
        [.unreadable ⟨.single, [['d'], "snippets.json".toList]⟩ none]) := by cbv
  have hload' : load .forgiving profilesOnly ⟨.single, [['d']]⟩ 2 =
      .ok (snapshotOf 2 ⟨.single, [['d']]⟩ {} profiles, []) := by cbv
  have hsame : SameSource ⟨.single, [['d']]⟩ profilesName brokenSnippets profilesOnly := by
    intro file ending content
    rw [counts_profiles (by cbv) (by cbv), counts_profiles (by cbv) rfl]
  obtain ⟨-, -, hapart⟩ := sources_apart Readers.plain_forgiving brokenSnippets ⟨.single, [['d']]⟩ 1
  obtain ⟨-, -, htwo⟩ := hapart _ _ hload
  exact ⟨Readers.plain_forgiving, hsame, _, _, _, hload, rfl, rfl, hload', (htwo _ _ _ _ hload').2 hsame⟩

/-- A source of snippets that may not be read is reported in the words of the system, and no other file
of it counts. -/
example :
    (readSource .standard ⟨brokenSnippets.entries.insert [['d'], "snippets.json".toList] .unreadable⟩
      ⟨.single, [['d']]⟩ snippetsName).toOption.bind (·.2.map Problem.message) =
    some ("Error while parsing the file /d/snippets.json: " ++
      "[Errno 13] Permission denied: '/d/snippets.json'").toList := by
  decide +kernel

theorem isTooLong_of_le {n : Nat} (h : Nat.pow 10 Text.maxNumberLength ≤ n) :
    (Scalar.int n).isTooLong = true := by
  simpa only [Scalar.isTooLong, Int.natAbs_natCast, decide_eq_true_eq] using h

/-- Readers that find, in every text that is to be YAML, a snippet whose key is an integer of one
digit too many. -/
def Readers.longKeyed : Readers where
  json := Readers.forgiving.json
  yaml _ := .ok (.mapping [(.text "html".toList, .mapping [(.text "snippets".toList,
    .mapping [(.int (Nat.pow 10 Text.maxNumberLength : Nat), .text ['x'])])])])
  complaint? _ _ := none

/-- The same profiles beside a source of snippets in YAML. -/
def longKeyedSnippets : Tree :=
  profilesOnly.write ⟨.single, [['d'], "snippets.yml".toList]⟩ []

/-- The key of one snippet keeps the profiles from being loaded. -/
theorem sources_not_always_apart :
    ¬ ∀ readers tree tree' d n n' s problems, Readers.Plain readers → SameSource d profilesName tree tree' →
      load readers tree d n = .ok (s, problems) →
      ∃ s' problems', load readers tree' d n' = .ok (s', problems') ∧ s'.profiles = s.profiles := by
  intro claim
  have hplain : Readers.longKeyed.Plain := fun t why => ⟨(Readers.plain_forgiving t why).1, nofun⟩
  have hload : load .longKeyed profilesOnly ⟨.single, [['d']]⟩ 1 =
      .ok (snapshotOf 1 ⟨.single, [['d']]⟩ {} (.ofList [(.text ['a'], .text [])]), []) := by cbv
  have hsame : SameSource ⟨.single, [['d']]⟩ profilesName profilesOnly longKeyedSnippets := by
    intro file ending content
    rw [counts_profiles (by cbv) rfl, counts_profiles (by cbv) (by cbv)]
  have hcounts : Counts longKeyedSnippets ⟨.single, [['d']]⟩ snippetsName
      ⟨.single, [['d'], "snippets.yml".toList]⟩ ".yml".toList (.ok []) := counts_iff.2 ⟨by cbv, by cbv⟩
  have hhindered : Hindered .longKeyed longKeyedSnippets ⟨.single, [['d']]⟩ := by
    refine .key (.mapping hcounts ⟨[], by cbv, rfl⟩ rfl) (List.mem_singleton.2 rfl)
      ⟨_, _, ['x'], rfl, List.mem_singleton.2 rfl, ?_⟩
    exact isTooLong_of_le (Nat.le_refl _)
  obtain ⟨why, hlost⟩ := (load_eq_error_iff_hindered (n := 2) hplain).2 hhindered
  obtain ⟨s', problems', hfound, -⟩ := claim _ _ _ _ 1 2 _ _ hplain hsame hload
  rw [hlost] at hfound
  cases hfound

end Shorthand.Extensions
