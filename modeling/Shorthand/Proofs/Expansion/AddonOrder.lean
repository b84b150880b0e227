/-
The addons of a configuration and the options that they turn on in the engine. Names of filters come
from what was typed, from the profile and from the dialect; `assemble_addons` says which of them count
and in which order, and that the engine has an option for an addon exactly when its name is among them.
-/
import Shorthand.Proofs.Data.FirstOccurrence
import Shorthand.Proofs.Expansion.LoadedProfile

namespace Shorthand.Expansion

open Data

namespace Addon

/-- The names for which there is an addon. -/
def registered : List Text := ["bem", "c", "t", "jsx"].map String.toList

/-- Options of the engine that are on or not there, with the names that turn them on. -/
def switches : List (Text × Text) :=
  [("bem.enabled", "bem"), ("comment.enabled", "c"), ("jsx.enabled", "jsx")].map
    fun (option, name) => (option.toList, name.toList)

/-- A preference that counts as true is chosen, and otherwise the default. -/
def Chosen (preferences : Mapping) (key fallback : Text) (value : Value) : Prop :=
  (preferences.get? (.text key) = some value ∧ value.truthy = true) ∨
    ((∀ v, preferences.get? (.text key) = some v → v.truthy = false) ∧ value = .text fallback)

section Preference

variable {preferences : Mapping} {key fallback : Text} {value : Value}

theorem preference_of_truthy (h : preferences.get? (.text key) = some value) (htruthy : value.truthy = true) :
    preference preferences key fallback = value := by
  rw [preference, h]
  exact if_pos htruthy

theorem preference_of_not_truthy (h : ∀ v, preferences.get? (.text key) = some v → v.truthy = false) :
    preference preferences key fallback = .text fallback := by
  rw [preference]
  cases hv : preferences.get? (.text key) with
  | none => rfl
  | some v => exact if_neg (Bool.eq_false_iff.1 (h v hv))

theorem preference_eq_iff :
    preference preferences key fallback = value ↔ Chosen preferences key fallback value := by
  constructor
  · rintro rfl
    by_cases h : ∃ v, preferences.get? (.text key) = some v ∧ v.truthy = true
    · obtain ⟨v, hv, htruthy⟩ := h
      rw [preference_of_truthy hv htruthy]
      exact .inl ⟨hv, htruthy⟩
    · have hnot : ∀ v, preferences.get? (.text key) = some v → v.truthy = false := fun v hv =>
        Bool.eq_false_iff.2 fun htruthy => h ⟨v, hv, htruthy⟩
      rw [preference_of_not_truthy hnot]
      exact .inr ⟨hnot, rfl⟩
  · rintro (⟨hv, htruthy⟩ | ⟨hnot, rfl⟩)
    · exact preference_of_truthy hv htruthy
    · exact preference_of_not_truthy hnot

end Preference

/-! ## Names -/

section Names

variable {preferences : Mapping} {name : Text} {addon : Addon}

theorem name_of_ofFilter? (h : ofFilter? preferences name = some addon) : addon.name = name := by
  simp only [ofFilter?] at h
  split at h
  next hname => cases h; exact hname.symm
  next =>
    split at h
    next hname => cases h; exact hname.symm
    next =>
      split at h
      next hname => cases h; exact hname.symm
      next =>
        split at h
        next hname => cases h; exact hname.symm
        next => cases h

theorem name_mem_registered (addon : Addon) : addon.name ∈ registered := by
  cases addon <;> simp [name, registered]

theorem isSome_ofFilter?_iff : (ofFilter? preferences name).isSome ↔ name ∈ registered := by
  constructor
  · intro h
    obtain ⟨addon, haddon⟩ := Option.isSome_iff_exists.1 h
    exact name_of_ofFilter? haddon ▸ name_mem_registered addon
  · intro h
    simp only [registered, List.map_cons, List.map_nil, List.mem_cons, List.not_mem_nil, or_false] at h
    obtain rfl | rfl | rfl | rfl := h <;> rfl

end Names

/-! ## Addons of a request -/

section Build

variable {dialect : Text} {filters : List Text} {preferences : Mapping}

theorem ofFilter?_of_mem_named {e : Text × Addon}
    (h : e ∈ (Dict.ofList (filters.filterMap fun f => (ofFilter? preferences f).map (f, ·))).entries) :
    ofFilter? preferences e.1 = some e.2 := by
  obtain ⟨f, -, hf⟩ := List.mem_filterMap.1 (Dict.mem_of_mem_ofList h)
  obtain ⟨addon, haddon, rfl⟩ := Option.map_eq_some_iff.1 hf
  exact haddon

theorem ofFilter?_of_mem_build {addon : Addon} (h : addon ∈ build dialect filters preferences) :
    ofFilter? preferences addon.name = some addon := by
  obtain ⟨e, he, rfl⟩ := List.mem_map.1 h
  have hf := ofFilter?_of_mem_named he
  rwa [name_of_ofFilter? hf]

theorem names_build : (build dialect filters preferences).map name =
    (Dict.ofList ((filters ++ ofDialect dialect).filterMap fun f => (ofFilter? preferences f).map (f, ·))).keys := by
  rw [build, List.map_map]
  exact List.map_congr_left fun e he => name_of_ofFilter? (ofFilter?_of_mem_named he)

/-- Filters of the profile that were typed as well change nothing. -/
theorem firstOccurrences_build (typed named : List Text) :
    FirstOccurrences (· ∈ registered) (typed ++ named ++ ofDialect dialect)
      ((build dialect (typed ++ named.filter (!typed.contains ·)) preferences).map name) := by
  have hempty : FirstOccurrences (fun f => (ofFilter? preferences f).isSome) []
    (Dict.empty : Dict Text Addon).keys := .nil
  have hnamed := (hempty.insertAll_all typed).insertAll named typed.contains
    fun f hf => List.contains_iff_mem.1 hf
  have hall := hnamed.insertAll_all (ofDialect dialect)
  simp only [isSome_ofFilter?_iff, ← Dict.insertAll_append, ← List.filterMap_append, List.nil_append] at hall
  rwa [names_build]

end Build

/-! ## Options for addons -/

/-- The options of the engine that come with an addon, with its name. -/
def optionOwners : List (Text × Text) :=
  switches ++ [("bem.element".toList, "bem".toList), ("bem.modifier".toList, "bem".toList)]

theorem exists_option_iff {option owner : Text} (h : (option, owner) ∈ optionOwners) (addon : Addon) :
    (∃ e ∈ addon.engineEntries, e.1 = option) ↔ addon.name = owner := by
  rw [← List.mem_map]
  simp only [optionOwners, switches, List.map_cons, List.map_nil, List.cons_append, List.nil_append, List.mem_cons,
    Prod.mk.injEq, List.not_mem_nil, or_false] at h
  obtain ⟨rfl, rfl⟩ | ⟨rfl, rfl⟩ | ⟨rfl, rfl⟩ | ⟨rfl, rfl⟩ | ⟨rfl, rfl⟩ := h <;> cases addon <;>
    simp [engineEntries, name]

/-- An option that is on or not there is on. -/
theorem switch_value {option owner : Text} (h : (option, owner) ∈ switches) (addon : Addon) :
    ∀ e ∈ addon.engineEntries, e.1 = option → e.2 = .bool true := by
  simp only [switches, List.map_cons, List.map_nil, List.mem_cons, Prod.mk.injEq, List.not_mem_nil, or_false] at h
  obtain ⟨rfl, -⟩ | ⟨rfl, -⟩ | ⟨rfl, -⟩ := h <;> cases addon <;> simp [engineEntries]

theorem bem_of_ofFilter? {preferences : Mapping} {f : Text} {element modifier : Value}
    (h : ofFilter? preferences f = some (.bem element modifier)) :
    preference preferences "bem.elementSeparator".toList bemElement = element ∧
      preference preferences "bem.modifierSeparator".toList bemModifier = modifier := by
  obtain rfl : "bem".toList = f := name_of_ofFilter? h
  cases h
  exact ⟨rfl, rfl⟩

theorem separator_value {preferences : Mapping} {f : Text} {addon : Addon}
    (h : ofFilter? preferences f = some addon) : ∀ e ∈ addon.engineEntries,
      (e.1 = "bem.element".toList → e.2 = preference preferences "bem.elementSeparator".toList bemElement) ∧
      (e.1 = "bem.modifier".toList → e.2 = preference preferences "bem.modifierSeparator".toList bemModifier) := by
  cases addon with
  | bem element modifier =>
    obtain ⟨rfl, rfl⟩ := bem_of_ofFilter? h
    simp [engineEntries]
  | comment | trim | jsx => simp [engineEntries]

end Addon

open Addon (Chosen registered switches optionOwners)

/-- An option of the engine that comes with an addon is there with the addon, and has its value. -/
theorem get?_option {config : Config} {option owner : Text} {v : Value} (h : (option, owner) ∈ optionOwners)
    (hv : ∀ addon ∈ config.addons, ∀ e ∈ addon.engineEntries, e.1 = option → e.2 = v) (value : Value) :
    config.toEngineConfig.options.get? option = some value ↔
      owner ∈ config.addons.map Addon.name ∧ value = v := by
  have hapart : ∀ p ∈ Profile.engineNames, ∀ o ∈ optionOwners, o.1 ≠ p.2 := by decide
  have hprofile : ∀ e ∈ Profile.engineEntries config.profile, e.1 ≠ option := by
    intro e he heq
    obtain ⟨t, -, hlookup⟩ := mem_engineEntries.1 he
    obtain ⟨before, after, hsplit, -⟩ := List.lookup_eq_some_iff.1 hlookup
    exact hapart (t, e.1) (by simp [hsplit]) (option, owner) h heq.symm
  have hentries : ∀ e ∈ Profile.engineEntries config.profile ++ config.addons.flatMap Addon.engineEntries,
      (e.1 == option) = true → e.2 = v := by
    intro e he heq
    obtain he | he := List.mem_append.1 he
    · exact absurd (eq_of_beq heq) (hprofile e he)
    · obtain ⟨addon, haddon, he⟩ := List.mem_flatMap.1 he
      exact hv addon haddon e he (eq_of_beq heq)
  rw [Config.toEngineConfig, Dict.get?_ofList_eq_some_iff_of_forall hentries]
  refine and_congr_left fun _ => ?_
  constructor
  · rintro ⟨e, he, heq⟩
    obtain he | he := List.mem_append.1 he
    · exact absurd (eq_of_beq heq) (hprofile e he)
    · obtain ⟨addon, haddon, he⟩ := List.mem_flatMap.1 he
      exact List.mem_map.2 ⟨addon, haddon, (Addon.exists_option_iff h addon).1 ⟨e, he, eq_of_beq heq⟩⟩
  · intro howner
    obtain ⟨addon, haddon, hname⟩ := List.mem_map.1 howner
    obtain ⟨e, he, rfl⟩ := (Addon.exists_option_iff h addon).2 hname
    exact ⟨e, List.mem_append_right _ (List.mem_flatMap.2 ⟨addon, haddon, he⟩), BEq.rfl⟩

/-- **Addons stand in the order in which their names first occur**, in what was typed, in the filters of
the merged profile and among those of the dialect, one after the other; names without an addon are left
out. The name and the preferences make the addon. In the engine an addon has its option exactly when it
is among them, and the separators are those of the preferences, or the defaults for those that are
missing or count as false. -/
theorem assemble_addons (dialect : Text) (request : Request) (snapshot : Extensions.Snapshot) :
    ((∃ config, Config.assemble dialect request snapshot = .ok config) ↔
      (∀ key, ¬ Profile.Garbled (snapshot.profile dialect) key) ∧
        ∀ key, ¬ Profile.Garbled (requestedProfile dialect request) key) ∧
    ∀ config, Config.assemble dialect request snapshot = .ok config →
      let names := config.addons.map Addon.name
      let options := config.toEngineConfig.options
      FirstOccurrences (· ∈ registered)
        (request.filters ++ Config.profileFilters config.profile ++ Addon.ofDialect dialect) names ∧
      (∀ addon ∈ config.addons, Addon.ofFilter? request.preferences addon.name = some addon) ∧
      (∀ option owner, (option, owner) ∈ switches → ∀ value,
        options.get? option = some value ↔ owner ∈ names ∧ value = .bool true) ∧
      (∀ value, options.get? "bem.element".toList = some value ↔ "bem".toList ∈ names ∧
        Chosen request.preferences "bem.elementSeparator".toList "__".toList value) ∧
      ∀ value, options.get? "bem.modifier".toList = some value ↔ "bem".toList ∈ names ∧
        Chosen request.preferences "bem.modifierSeparator".toList "_".toList value := by
  refine ⟨exists_assemble_iff, fun config h => ?_⟩
  have haddons : config.addons =
      Addon.build dialect (Config.requestedFilters request.filters config.profile) request.preferences := by
    obtain ⟨loaded, requested, -, -, rfl⟩ := assemble_eq_ok_iff.1 h
    rfl
  have hmade : ∀ addon ∈ config.addons, Addon.ofFilter? request.preferences addon.name = some addon :=
    fun addon haddon => Addon.ofFilter?_of_mem_build (haddons ▸ haddon)
  have hseparators := fun addon haddon => Addon.separator_value (hmade addon haddon)
  have helement : ("bem.element".toList, "bem".toList) ∈ optionOwners := by decide
  have hmodifier : ("bem.modifier".toList, "bem".toList) ∈ optionOwners := by decide
  refine ⟨?_, hmade, fun option owner howner value => ?_, fun value => ?_, fun value => ?_⟩
  · rw [haddons]
    exact Addon.firstOccurrences_build request.filters _
  · exact get?_option (List.mem_append_left _ howner) (fun addon _ => Addon.switch_value howner addon) value
  · rw [get?_option helement fun addon haddon e he => (hseparators addon haddon e he).1, @eq_comm _ value,
      Addon.preference_eq_iff]
    rfl
  · rw [get?_option hmodifier fun addon haddon e he => (hseparators addon haddon e he).2, @eq_comm _ value,
      Addon.preference_eq_iff]
    rfl

/-- A name twice, one without an addon, one that was typed and is the profile's too, blanks and empty
pieces in the list of the profile, one that only the dialect has, and one of the two separators that
counts as false. -/
theorem assemble_addons_repeated :
    let profile : Value := .mapping [(.text "filters".toList, .text " bem, c ,t,,bem".toList)]
    let request : Request :=
      ⟨.ofList [(.text "jsx".toList, profile)], {}, ["c", "nope", "c"].map String.toList,
        .ofList [(.text "bem.elementSeparator".toList, .text "-".toList),
          (.text "bem.modifierSeparator".toList, .text [])]⟩
    ∃ config, Config.assemble "jsx".toList request (.builtin 1) = .ok config ∧
      config.addons.map Addon.name = ["c", "bem", "t", "jsx"].map String.toList ∧
      FirstOccurrences (· ∈ registered)
        (["c", "nope", "c", "bem", "c", "t", "bem", "jsx"].map String.toList)
        (["c", "bem", "t", "jsx"].map String.toList) ∧
      config.toEngineConfig.options.get? "comment.enabled".toList = some (.bool true) ∧
      config.toEngineConfig.options.get? "jsx.enabled".toList = some (.bool true) ∧
      config.toEngineConfig.options.get? "bem.element".toList = some (.text "-".toList) ∧
      config.toEngineConfig.options.get? "bem.modifier".toList = some (.text "_".toList) := by
  intro profile request
  obtain ⟨config, h⟩ : ∃ config, Config.assemble "jsx".toList request (.builtin 1) = .ok config := ⟨_, rfl⟩
  obtain ⟨horder, -, hswitches, helement, hmodifier⟩ := (assemble_addons "jsx".toList request (.builtin 1)).2 config h
  have hnames : config.addons.map Addon.name = ["c", "bem", "t", "jsx"].map String.toList := by
    cases h
    decide
  have hfilters : Config.profileFilters config.profile = ["bem", "c", "t", "bem"].map String.toList := by
    cases h
    decide
  rw [hnames, hfilters] at horder
  rw [hnames] at hswitches helement hmodifier
  refine ⟨config, h, hnames, horder, (hswitches _ "c".toList ?_ _).2 ⟨?_, rfl⟩,
    (hswitches _ "jsx".toList ?_ _).2 ⟨?_, rfl⟩, (helement _).2 ⟨?_, .inl ⟨rfl, rfl⟩⟩,
    (hmodifier _).2 ⟨?_, .inr ⟨?_, rfl⟩⟩⟩
  · decide
  · decide
  · decide
  · decide
  · decide
  · decide
  · rintro v ⟨⟩
    rfl

end Shorthand.Expansion
