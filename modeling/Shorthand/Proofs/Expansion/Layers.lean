/-
The layers of a configuration. Profiles are laid over each other option by option and
variables name by name, so that the first layer that has an answer gives it; which names a
layer uses for its options makes no difference.

`assemble_layers` says so of every option and every variable, and for which profiles there
is a configuration at all.
-/
import Shorthand.Expansion.Config
import Shorthand.Proofs.Expansion.OptionNames
import Shorthand.Proofs.Extensions.Nearest

namespace Shorthand.Expansion

open Data Extensions Profile

/-! ## Layers -/

section Layers

variable {α : Type}

/-- The first of the layers that has an answer gives this one. -/
def FirstOf (layers : List (α → Prop)) (a : α) : Prop :=
  ∃ above layer below, layers = above ++ layer :: below ∧ layer a ∧ ∀ l ∈ above, ∀ b, ¬ l b

theorem not_firstOf_nil (a : α) : ¬ FirstOf [] a := by
  rintro ⟨above, layer, below, hsplit, -⟩
  simp at hsplit

theorem firstOf_cons {layer : α → Prop} {layers : List (α → Prop)} {a : α} :
    FirstOf (layer :: layers) a ↔ layer a ∨ (∀ b, ¬ layer b) ∧ FirstOf layers a := by
  constructor
  · rintro ⟨above, l, below, hsplit, ha, habove⟩
    cases above with
    | nil =>
      cases hsplit
      exact .inl ha
    | cons l' above =>
      cases hsplit
      obtain ⟨hfirst, habove⟩ := List.forall_mem_cons.1 habove
      exact .inr ⟨hfirst, above, l, below, rfl, ha, habove⟩
  · rintro (ha | ⟨hnone, above, l, below, rfl, ha, habove⟩)
    · exact ⟨[], layer, layers, rfl, ha, by simp⟩
    · exact ⟨layer :: above, l, below, rfl, ha, List.forall_mem_cons.2 ⟨hnone, habove⟩⟩

theorem firstOf_singleton {layer : α → Prop} {a : α} : FirstOf [layer] a ↔ layer a := by
  simp [firstOf_cons, not_firstOf_nil]

/-- Looking up in one place first and then in the others. -/
theorem or_eq_some_iff_firstOf {first others : Option α} {layer : α → Prop} {layers : List (α → Prop)}
    (hfirst : ∀ a, first = some a ↔ layer a) (hothers : ∀ a, others = some a ↔ FirstOf layers a) (a : α) :
    first.or others = some a ↔ FirstOf (layer :: layers) a := by
  have hnone : first = none ↔ ∀ b, ¬ layer b := by
    simp only [← hfirst, Option.eq_none_iff_forall_ne_some, ne_eq]
  rw [Option.or_eq_some_iff, firstOf_cons, hfirst, hothers, hnone]

end Layers

/-- The profile that a request has for a dialect. -/
def requestedProfile (dialect : Text) (request : Request) : Value :=
  (request.profiles.get? (.text dialect)).getD .null

/-- Where the value of an option may come from: the profile of the request, the loaded one,
the departures of the dialect, and what all markup has. -/
def profileLayers (dialect : Text) (request : Request) (snapshot : Snapshot) (option : Scalar) :
    List (Value → Prop) :=
  [Says (requestedProfile dialect request) option, Says (snapshot.profile dialect) option,
   fun value => Dialect.family dialect = .markup ∧ (dialectProfile dialect).get? option = some value,
   fun value => Dialect.family dialect = .markup ∧ markupProfile.get? option = some value]

/-- Where the value of a variable may come from: the request, the nearest dialect of the
chain that has it, and the global variables. -/
def variableLayers (dialect : Text) (request : Request) (snapshot : Snapshot) (name : Scalar) :
    List (Value → Prop) :=
  [fun value => request.vars.get? name = some value,
   Snapshot.Nearest snapshot.dialectVars (Dialect.chain dialect snapshot.parents) name,
   fun value => snapshot.vars.get? name = some value]

theorem defaultProfile_layers (dialect : Text) (option : Scalar) (value : Value) :
    (defaultProfile dialect).get? option = some value ↔ FirstOf
      [fun value => Dialect.family dialect = .markup ∧ (dialectProfile dialect).get? option = some value,
       fun value => Dialect.family dialect = .markup ∧ markupProfile.get? option = some value] value := by
  rw [defaultProfile]
  cases Dialect.family dialect with
  | markup =>
    rw [Dict.get?_update]
    exact or_eq_some_iff_firstOf (by simp) (by simp [firstOf_singleton]) value
  | stylesheet =>
    rw [firstOf_cons, firstOf_singleton]
    constructor
    · exact nofun
    · rintro (⟨hmarkup, -⟩ | ⟨-, hmarkup, -⟩) <;> cases hmarkup

theorem variables_layers (dialect : Text) (request : Request) (snapshot : Snapshot) (name : Scalar)
    (value : Value) :
    ((snapshot.resolveVariables dialect).update request.vars).get? name = some value ↔
      FirstOf (variableLayers dialect request snapshot name) value := by
  rw [Dict.get?_update]
  refine or_eq_some_iff_firstOf (fun _ => Iff.rfl) (fun inherited => ?_) value
  rw [Snapshot.resolveVariables, Snapshot.lineage, Snapshot.get?_inherit, List.reverse_reverse]
  exact or_eq_some_iff_firstOf (fun _ => Snapshot.nearest_iff.symm) (by simp [firstOf_singleton]) inherited

/-! ## Assembling -/

/-- A configuration is what its two profiles make of it, once both are in normal form. -/
theorem assemble_eq_ok_iff {dialect : Text} {request : Request} {snapshot : Snapshot} {config : Config} :
    Config.assemble dialect request snapshot = .ok config ↔
      ∃ loaded requested, normalize (snapshot.profile dialect) = .ok loaded ∧
        normalize (requestedProfile dialect request) = .ok requested ∧
        config =
          { dialect := dialect
            family := Dialect.family dialect
            profile := ((defaultProfile dialect).update loaded).update requested
            vars := (snapshot.resolveVariables dialect).update request.vars
            addons := Addon.build dialect (Config.requestedFilters request.filters
              (((defaultProfile dialect).update loaded).update requested)) request.preferences
            snippets := if Dialect.isKnown dialect then snapshot.resolveSnippets dialect else none } := by
  rw [Config.assemble, requestedProfile]
  cases normalize (snapshot.profile dialect) with
  | error why => simp [bind, Except.bind]
  | ok loaded =>
    cases normalize ((request.profiles.get? (.text dialect)).getD .null) with
    | error why => simp [bind, Except.bind]
    | ok requested =>
      constructor
      · rintro ⟨⟩
        exact ⟨loaded, requested, rfl, rfl, rfl⟩
      · rintro ⟨_, _, ⟨⟩, ⟨⟩, rfl⟩
        rfl

theorem exists_assemble_iff {dialect : Text} {request : Request} {snapshot : Snapshot} :
    (∃ config, Config.assemble dialect request snapshot = .ok config) ↔
      (∀ key, ¬ Garbled (snapshot.profile dialect) key) ∧
        ∀ key, ¬ Garbled (requestedProfile dialect request) key := by
  rw [← exists_normalize_iff, ← exists_normalize_iff]
  constructor
  · rintro ⟨config, h⟩
    obtain ⟨loaded, requested, hloaded, hrequested, -⟩ := assemble_eq_ok_iff.1 h
    exact ⟨⟨loaded, hloaded⟩, ⟨requested, hrequested⟩⟩
  · rintro ⟨⟨loaded, hloaded⟩, ⟨requested, hrequested⟩⟩
    exact ⟨_, assemble_eq_ok_iff.2 ⟨loaded, requested, hloaded, hrequested, rfl⟩⟩

theorem profile_layers {dialect : Text} {request : Request} {snapshot : Snapshot} {config : Config}
    (h : Config.assemble dialect request snapshot = .ok config) (option : Scalar) (value : Value) :
    config.profile.get? option = some value ↔
      FirstOf (profileLayers dialect request snapshot option) value := by
  obtain ⟨loaded, requested, hloaded, hrequested, rfl⟩ := assemble_eq_ok_iff.1 h
  rw [Dict.get?_update, Dict.get?_update]
  refine or_eq_some_iff_firstOf (fun _ => get?_normalize hrequested) (fun below => ?_) value
  exact or_eq_some_iff_firstOf (fun _ => get?_normalize hloaded) (defaultProfile_layers dialect option) below

/-- **Each layer hides those below it, option by option.** There is a configuration unless one
of the two profiles cannot be normalised. Every option of it has the value that the first
layer with a say gives it, and every variable likewise; so a layer that names an option, by its
old name or by its current one, hides what the layers below have for it under either. -/
theorem assemble_layers (dialect : Text) (request : Request) (snapshot : Snapshot) :
    ((∃ config, Config.assemble dialect request snapshot = .ok config) ↔
      (∀ key, ¬ Garbled (snapshot.profile dialect) key) ∧
        ∀ key, ¬ Garbled (requestedProfile dialect request) key) ∧
    ∀ config, Config.assemble dialect request snapshot = .ok config →
      (∀ option value, config.profile.get? option = some value ↔
        FirstOf (profileLayers dialect request snapshot option) value) ∧
      (∀ name value, config.vars.get? name = some value ↔
        FirstOf (variableLayers dialect request snapshot name) value) ∧
      ∀ (old : OldName) (m : Mapping), m.contains (.text old.spelling) = true ∨
          m.contains (.text old.current) = true →
        ((requestedProfile dialect request).mapping? = some m →
          ∃ value, Says (requestedProfile dialect request) (.text old.current) value ∧
            config.profile.get? (.text old.current) = some value) ∧
        ((∀ value, ¬ Says (requestedProfile dialect request) (.text old.current) value) →
          (snapshot.profile dialect).mapping? = some m →
          ∃ value, Says (snapshot.profile dialect) (.text old.current) value ∧
            config.profile.get? (.text old.current) = some value) := by
  refine ⟨exists_assemble_iff, fun config h => ⟨profile_layers h, fun name value => ?_, ?_⟩⟩
  · obtain ⟨loaded, requested, -, -, rfl⟩ := assemble_eq_ok_iff.1 h
    exact variables_layers dialect request snapshot name value
  · intro old m hnamed
    refine ⟨fun hm => ?_, fun hsilent hm => ?_⟩
    · obtain ⟨value, hvalue⟩ := says_of_named hm old hnamed
      exact ⟨value, hvalue, (profile_layers h _ _).2 (firstOf_cons.2 (.inl hvalue))⟩
    · obtain ⟨value, hvalue⟩ := says_of_named hm old hnamed
      exact ⟨value, hvalue, (profile_layers h _ _).2
        (firstOf_cons.2 (.inr ⟨hsilent, firstOf_cons.2 (.inl hvalue)⟩))⟩

/-- Each layer decides an option. The request has the letter case of tags under its old name and that of
attributes under its current one, and the loaded profile the other way round; only the loaded one has
quotes. The style of closing is that of the dialect over the one of all markup, and the break of inline
tags that of all markup. -/
theorem assemble_layers_mixed :
    let loaded : Value := .mapping [(.text "tagCase".toList, .text "lower".toList),
      (.text "attr_case".toList, .text "upper".toList), (.text "attr_quotes".toList, .text "single".toList)]
    let requested : Value := .mapping [(.text "tag_case".toList, .text "upper".toList),
      (.text "attributeCase".toList, .text "lower".toList)]
    let snapshot : Snapshot := { Snapshot.builtin 1 with profiles := .ofList [(.text "xml".toList, loaded)] }
    let request : Request := ⟨.ofList [(.text "xml".toList, requested)], {}, [], {}⟩
    ∃ config, Config.assemble "xml".toList request snapshot = .ok config ∧
      config.profile.get? (.text "tagCase".toList) = some (.text "upper".toList) ∧
      config.profile.get? (.text "attributeCase".toList) = some (.text "lower".toList) ∧
      config.profile.get? (.text "attributeQuotes".toList) = some (.text "single".toList) ∧
      config.profile.get? (.text "selfClosingStyle".toList) = some (.text "xml".toList) ∧
      config.profile.get? (.text "inlineBreak".toList) = some (.int 3) := by
  intro loaded requested snapshot request
  obtain ⟨-, hlayers⟩ := assemble_layers "xml".toList request snapshot
  obtain ⟨config, h⟩ : ∃ config, Config.assemble "xml".toList request snapshot = .ok config := ⟨_, rfl⟩
  obtain ⟨hprofile, -, -⟩ := hlayers config h
  have hloaded : normalize loaded = .ok (.ofList [(.text "tagCase".toList, .text "lower".toList),
    (.text "attributeCase".toList, .text "upper".toList),
    (.text "attributeQuotes".toList, .text "single".toList)]) := rfl
  have hrequested : normalize requested = .ok (.ofList [(.text "tagCase".toList, .text "upper".toList),
    (.text "attributeCase".toList, .text "lower".toList)]) := rfl
  refine ⟨config, h, (hprofile _ _).2 ?_, (hprofile _ _).2 ?_, (hprofile _ _).2 ?_, (hprofile _ _).2 ?_,
    (hprofile _ _).2 ?_⟩
  · exact firstOf_cons.2 (.inl ((get?_normalize hrequested).1 rfl))
  · exact firstOf_cons.2 (.inl ((get?_normalize hrequested).1 rfl))
  · refine firstOf_cons.2 (.inr ⟨(not_says_iff hrequested).2 rfl, firstOf_cons.2 (.inl ?_)⟩)
    exact (get?_normalize hloaded).1 rfl
  · refine firstOf_cons.2 (.inr ⟨(not_says_iff hrequested).2 rfl, ?_⟩)
    exact firstOf_cons.2 (.inr ⟨(not_says_iff hloaded).2 rfl, firstOf_cons.2 (.inl ⟨by decide, rfl⟩)⟩)
  · refine firstOf_cons.2 (.inr ⟨(not_says_iff hrequested).2 rfl, ?_⟩)
    refine firstOf_cons.2 (.inr ⟨(not_says_iff hloaded).2 rfl, firstOf_cons.2 (.inr ⟨?_, ?_⟩)⟩)
    · rintro value ⟨-, hvalue⟩
      cases hvalue
    · exact firstOf_singleton.2 ⟨by decide, rfl⟩

end Shorthand.Expansion
