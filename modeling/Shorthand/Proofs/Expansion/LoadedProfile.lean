/-
Configurations from a loaded directory and the settings of a client. The settings come from
JSON and never stand in the way; of what was loaded only the profile of the dialect does, when
it has a key that is no text.

`assemble_loaded_iff` says exactly when, and that every other key of the profile is kept;
`assemble_loaded_not_always` is a directory with which there is no configuration.
-/
import Shorthand.Completion.Candidate
import Shorthand.Proofs.Data.TextKeyed
import Shorthand.Proofs.Expansion.Layers
import Shorthand.Proofs.Extensions.Loading

namespace Shorthand

namespace Extensions

open Data Files

theorem load_profiles {readers : Readers} {tree : Tree} {directory : Path} {generation : Nat}
    {snapshot : Snapshot} {problems : List Problem}
    (h : load readers tree directory generation = .ok (snapshot, problems)) :
    ∃ problem, readSource readers tree directory profilesName = .ok (snapshot.profiles, problem) := by
  simp only [load, bind, Except.bind] at h
  split at h
  · cases h
  split at h
  · cases h
  next profiles hprofiles =>
    split at h
    · cases h
    · cases h
      exact ⟨_, hprofiles⟩

/-- What is read as JSON has texts for keys. -/
def Readers.JsonTextKeyed (readers : Readers) : Prop := ∀ t v, readers.json t = .ok v → TextKeyed v

theorem Readers.jsonTextKeyed_standard : Readers.standard.JsonTextKeyed := fun _ _ => Json.textKeyed_of_read

theorem textKeyed_of_readFile {readers : Readers} {tree : Tree} {file : Path} {v : Value}
    (hreaders : readers.JsonTextKeyed) (h : readFile readers tree file ".json".toList = .ok v) : TextKeyed v := by
  obtain ⟨content, -, hcontent⟩ := readFile_eq_ok_iff.1 h
  rw [readContent] at hcontent
  split at hcontent
  next => cases hcontent
  next t _ => exact hreaders (Text.unifyLineBreaks t) v hcontent

/-- What a source holds is keyed by texts when it is written in JSON or missing. -/
theorem textKeyed_of_readSource {readers : Readers} {tree : Tree} {directory : Path} {name : Text}
    {source : Mapping} {problem : Option Problem} (hreaders : readers.JsonTextKeyed)
    (h : readSource readers tree directory name = .ok (source, problem))
    (hjson : ∀ file ending, sourceFile? tree directory name = .ok (some (file, ending)) →
      ending = ".json".toList) :
    ∀ e ∈ source.entries, TextKeyed e.2 := by
  have hempty : ∀ e ∈ (∅ : Mapping).entries, TextKeyed e.2 := fun _ he => nomatch he
  rw [readSource] at h
  split at h
  next => cases h
  next =>
    cases h
    exact hempty
  next file ending hfile =>
    obtain rfl := hjson file ending hfile
    split at h
    next =>
      cases h
      exact hempty
    next => cases h
    next v hv =>
      split at h
      next m hm =>
        cases h
        exact fun e he => ((textKeyed_of_readFile hreaders hv).entries hm e he).2
      next =>
        cases h
        exact hempty

end Extensions

namespace Expansion

open Data Extensions Files Profile

theorem not_garbled {profile : Value} (h : TextKeyed profile) (key : Scalar) : ¬ Garbled profile key := by
  rintro ⟨m, hm, before, value, after, hsplit, hkey, -⟩
  obtain ⟨⟨t, ht⟩, -⟩ := h.entries hm (key, value) (by simp [hsplit])
  exact hkey t ht

theorem textKeyed_getD {m : Mapping} {k : Scalar} (h : ∀ e ∈ m.entries, TextKeyed e.2) :
    TextKeyed ((m.get? k).getD .null) := by
  cases hk : m.get? k with
  | none => exact .scalar .null
  | some v =>
    obtain ⟨e, he, -, rfl⟩ := Dict.mem_of_get? hk
    exact h e he

/-- The profiles in the settings are keyed by texts when all that the client sent is. -/
theorem textKeyed_profiles {sent : Value} (h : TextKeyed sent) :
    ∀ e ∈ (Settings.ofValue sent).profiles.entries, TextKeyed e.2 := by
  have hempty : ∀ e ∈ (∅ : Mapping).entries, TextKeyed e.2 := fun _ he => nomatch he
  rw [Settings.ofValue]
  cases hsent : sent.mapping? with
  | none => exact hempty
  | some data =>
    simp only [Settings.ofMapping]
    cases hprofiles : data.get? (.text "syntaxProfiles".toList) with
    | none => exact hempty
    | some profiles =>
      rw [Option.bind_some]
      cases hm : profiles.mapping? with
      | none => exact hempty
      | some m => exact fun e he => ((h.get? hsent hprofiles).entries hm e he).2

/-- A key that is no old name is kept with its value, unless the same option is given by its
old name later on. -/
theorem says_kept {profile : Value} {m : Mapping} {before after : List (Scalar × Value)} {k : Scalar}
    {v : Value} (hm : profile.mapping? = some m) (hsplit : m.entries = before ++ (k, v) :: after)
    (hk : ∀ old : OldName, k ≠ .text old.spelling)
    (hafter : ∀ old : OldName, k = .text old.current → ∀ e ∈ after, e.1 ≠ .text old.spelling) :
    Says profile k v := by
  have hdistinct := m.distinct
  rw [hsplit] at hdistinct
  have hapart := (List.pairwise_cons.1 (List.pairwise_append.1 hdistinct).2.1).1
  refine .entry hm ⟨before.map normalizeEntry, k, after.map normalizeEntry, ?_, BEq.rfl, ?_⟩
  · rw [hsplit, List.map_append, List.map_cons, normalizeEntry_other hk]
  · intro later hlater
    obtain ⟨⟨k', v'⟩, he, rfl⟩ := List.mem_map.1 hlater
    by_cases hold : ∃ old : OldName, k' = .text old.spelling
    · obtain ⟨old, rfl⟩ := hold
      rw [normalizeEntry_old, Bool.eq_false_iff]
      intro heq
      exact hafter old (Scalar.beq_text_iff.1 (BEq.symm heq)) _ he rfl
    · rw [normalizeEntry_other (not_exists.1 hold), BEq.comm]
      exact hapart (k', v') he

/-! ## What the engine gets -/

theorem engineNames_inj {t t' name : Text} (h : (t, name) ∈ engineNames)
    (h' : engineNames.lookup t' = some name) : t' = t := by
  have hinj : ∀ p ∈ engineNames, ∀ q ∈ engineNames, p.2 = q.2 → p.1 = q.1 := by decide
  obtain ⟨before, after, hsplit, -⟩ := List.lookup_eq_some_iff.1 h'
  exact hinj (t', name) (by simp [hsplit]) (t, name) h rfl

/-- No addon has an option of a profile. -/
theorem engineNames_addon {t name : Text} (h : (t, name) ∈ engineNames) (addon : Addon) :
    ∀ e ∈ addon.engineEntries, e.1 ≠ name := by
  have hapart : ∀ p ∈ engineNames, ∀ own ∈ ["bem.enabled", "bem.element", "bem.modifier", "comment.enabled",
      "jsx.enabled"].map String.toList, own ≠ p.2 := by decide
  intro e he
  refine hapart (t, name) h e.1 ?_
  cases addon with
  | bem element modifier =>
    simp only [Addon.engineEntries, List.mem_cons, List.not_mem_nil, or_false] at he
    obtain rfl | rfl | rfl := he <;> simp only [List.map_cons, List.mem_cons, true_or, or_true]
  | comment | jsx =>
    rw [List.mem_singleton.1 he]
    decide
  | trim => cases he

theorem mem_engineEntries {profile : Mapping} {name : Text} {v : Value} :
    (name, v) ∈ engineEntries profile ↔
      ∃ t, (.text t, v) ∈ profile.entries ∧ engineNames.lookup t = some name := by
  rw [engineEntries, List.mem_filterMap]
  constructor
  · rintro ⟨⟨k, v'⟩, he, heq⟩
    cases k with
    | text t =>
      obtain ⟨found, hfound, hpair⟩ := Option.map_eq_some_iff.1 heq
      cases hpair
      exact ⟨t, he, hfound⟩
    | null | bool | int | float | date | moment | bytes => cases heq
  · rintro ⟨t, he, hfound⟩
    exact ⟨(.text t, v), he, by simp [hfound]⟩

/-- The engine gets each option that it knows with the value that the profile has for it. -/
theorem get?_toEngineConfig {config : Config} {t name : Text} (h : (t, name) ∈ engineNames) :
    config.toEngineConfig.options.get? name = config.profile.get? (.text t) := by
  have haddons : ∀ e ∈ config.addons.flatMap Addon.engineEntries, (e.1 == name) = false := by
    intro e he
    obtain ⟨addon, -, he⟩ := List.mem_flatMap.1 he
    exact beq_false_of_ne (engineNames_addon h addon e he)
  have hsome {v : Value} (hv : (Dict.ofList (engineEntries config.profile)).get? name = some v) :
      config.profile.get? (.text t) = some v := by
    obtain ⟨before, ⟨own, v'⟩, after, hsplit, hown, rfl, -⟩ := Dict.get?_ofList_eq_some_iff.1 hv
    obtain rfl := eq_of_beq hown
    obtain ⟨t', he, hfound⟩ := mem_engineEntries.1 (hsplit ▸ List.mem_append_right before List.mem_cons_self)
    rw [← engineNames_inj h hfound]
    exact Dict.get?_of_mem he
  rw [Config.toEngineConfig, Dict.get?_ofList_append haddons]
  cases hv : (Dict.ofList (engineEntries config.profile)).get? name with
  | some v => exact (hsome hv).symm
  | none =>
    have hlookup : ∀ p ∈ engineNames, engineNames.lookup p.1 = some p.2 := by decide
    rw [eq_comm, Option.eq_none_iff_forall_ne_some]
    intro v hprofile
    obtain ⟨⟨k, v'⟩, he, hk, rfl⟩ := Dict.mem_of_get? hprofile
    obtain rfl := Scalar.beq_text_iff.1 hk
    have hmem := mem_engineEntries.2 ⟨t, he, hlookup (t, name) h⟩
    simpa using Dict.get?_ofList_eq_none_iff.1 hv _ hmem

/-! ## Configurations from loaded directories -/

/-- **What can be loaded can be configured, but for one thing.** With settings that came from
JSON and a snapshot of a directory there is a configuration for every dialect and all filters,
exactly when the loaded profile of the dialect has no key that is no text before its first key
with an underscore. So there always is one when the profiles are written in JSON. Every key
that is no old name is kept, unless the profile gives the same option by its old name later on
or the request has it; and the engine gets every option it knows. Of the readers nothing counts
but that JSON has texts for keys. -/
theorem assemble_loaded_iff {readers : Readers} {tree : Tree} {directory : Path} {generation : Nat}
    {snapshot : Snapshot} {problems : List Problem} {sent : Value} (hreaders : readers.JsonTextKeyed)
    (hload : load readers tree directory generation = .ok (snapshot, problems)) (hsent : TextKeyed sent)
    (dialect : Text) (filters : List Text) :
    let request := Completion.request (.ofValue sent) filters
    ((∃ config, Config.assemble dialect request snapshot = .ok config) ↔
      ∀ key, ¬ Garbled (snapshot.profile dialect) key) ∧
    ((∀ file ending, sourceFile? tree directory profilesName = .ok (some (file, ending)) →
        ending = ".json".toList) →
      ∃ config, Config.assemble dialect request snapshot = .ok config) ∧
    ∀ config, Config.assemble dialect request snapshot = .ok config →
      (∀ m before k v after, (snapshot.profile dialect).mapping? = some m →
        m.entries = before ++ (k, v) :: after → (∀ old : OldName, k ≠ .text old.spelling) →
        (∀ old : OldName, k = .text old.current → ∀ e ∈ after, e.1 ≠ .text old.spelling) →
        (∀ value, ¬ Says (requestedProfile dialect request) k value) →
        config.profile.get? k = some v) ∧
      ∀ t name, (t, name) ∈ engineNames →
        config.toEngineConfig.options.get? name = config.profile.get? (.text t) := by
  intro request
  have hrequested (key : Scalar) : ¬ Garbled (requestedProfile dialect request) key :=
    not_garbled (textKeyed_getD (textKeyed_profiles hsent)) key
  have hexists : (∃ config, Config.assemble dialect request snapshot = .ok config) ↔
      ∀ key, ¬ Garbled (snapshot.profile dialect) key := by
    rw [exists_assemble_iff]
    exact and_iff_left hrequested
  refine ⟨hexists, fun hjson => hexists.2 fun key => ?_, fun config h => ⟨?_, fun t name => get?_toEngineConfig⟩⟩
  · obtain ⟨problem, hsource⟩ := load_profiles hload
    exact not_garbled (textKeyed_getD (textKeyed_of_readSource hreaders hsource hjson)) key
  · intro m before k v after hm hsplit hk hafter hsilent
    rw [profile_layers h]
    exact firstOf_cons.2 (.inr ⟨hsilent, firstOf_cons.2 (.inl (says_kept hm hsplit hk hafter))⟩)

/-- The directory `/d` with a source of profiles in YAML. -/
def profilesTree (source : String) : Tree :=
  Tree.empty.write ⟨.single, [['d'], "syntaxProfiles.yml".toList]⟩ (Text.utf8 source.toList)

/-- A key that is a number stands behind one with an underscore, and is kept. -/
theorem assemble_loaded_iff_number :
    Readers.standard.JsonTextKeyed ∧ ∃ snapshot problems config,
      load .standard (profilesTree "html: {my_key: y, 1: x}") ⟨.single, [['d']]⟩ 1 = .ok (snapshot, problems) ∧
      TextKeyed .null ∧
      Config.assemble "html".toList (Completion.request (.ofValue .null) []) snapshot = .ok config ∧
      (config.profile.get? (.int 1)).bind (·.text?) = some ['x'] := by
  have hread : (match load .standard (profilesTree "html: {my_key: y, 1: x}") ⟨.single, [['d']]⟩ 1 with
      | .ok (snapshot, _) => (normalize (snapshot.profile "html".toList)).toBool &&
          ((snapshot.profile "html".toList).mapping?.bind (·.get? (.int 1))).bind (·.text?) == some ['x']
      | .error _ => false) = true := by decide +kernel
  cases hload : load .standard (profilesTree "html: {my_key: y, 1: x}") ⟨.single, [['d']]⟩ 1 with
  | error why =>
    rw [hload] at hread
    cases hread
  | ok loaded =>
    obtain ⟨snapshot, problems⟩ := loaded
    rw [hload, Bool.and_eq_true, beq_iff_eq] at hread
    obtain ⟨hnormal, htext⟩ := hread
    have hsent : TextKeyed .null := .scalar .null
    obtain ⟨hexists, -, hconfig⟩ := assemble_loaded_iff Readers.jsonTextKeyed_standard hload hsent "html".toList []
    have hnormal : ∃ normal, normalize (snapshot.profile "html".toList) = .ok normal := by
      cases hn : normalize (snapshot.profile "html".toList) with
      | error why =>
        rw [hn] at hnormal
        cases hnormal
      | ok normal => exact ⟨normal, rfl⟩
    obtain ⟨config, h⟩ := hexists.2 (exists_normalize_iff.1 hnormal)
    obtain ⟨v, hv, htext⟩ := Option.bind_eq_some_iff.1 htext
    obtain ⟨m, hm, hv⟩ := Option.bind_eq_some_iff.1 hv
    obtain ⟨⟨k, v'⟩, he, hk, rfl⟩ := Dict.mem_of_get? hv
    obtain ⟨before, after, hsplit⟩ := List.append_of_mem he
    have hnumber (t : Text) : k ≠ .text t := by
      rintro rfl
      rw [BEq.comm, Scalar.beq_text_iff] at hk
      cases hk
    have hkept := (hconfig config h).1 m before k v' after hm hsplit (fun _ => hnumber _)
      (fun _ heq => absurd heq (hnumber _)) fun _ hsays => hnumber _ ((says_of_no_mapping rfl).1 hsays).2.1
    rw [Dict.get?_congr hk] at hkept
    exact ⟨Readers.jsonTextKeyed_standard, snapshot, problems, config, rfl, hsent, h, by rw [hkept]; exact htext⟩

/-- In the profile of a dialect the only key is a number: it can be loaded, and there is no
configuration. -/
theorem assemble_loaded_not_always :
    ¬ ∀ tree directory generation snapshot problems sent dialect filters,
      load .standard tree directory generation = .ok (snapshot, problems) → TextKeyed sent →
      ∃ config, Config.assemble dialect (Completion.request (.ofValue sent) filters) snapshot = .ok config := by
  intro claim
  have hread : (match load .standard (profilesTree "html: {1: x}") ⟨.single, [['d']]⟩ 1 with
      | .ok (snapshot, _) =>
        (Config.assemble "html".toList (Completion.request (.ofValue .null) []) snapshot).toBool
      | .error _ => true) = false := by decide +kernel
  cases hload : load .standard (profilesTree "html: {1: x}") ⟨.single, [['d']]⟩ 1 with
  | error why =>
    rw [hload] at hread
    cases hread
  | ok loaded =>
    obtain ⟨config, h⟩ := claim _ _ _ loaded.1 loaded.2 .null "html".toList [] hload (.scalar .null)
    simp only [hload, h] at hread
    cases hread

end Expansion

end Shorthand
