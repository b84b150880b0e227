/-
What a profile says about an option, whichever names it uses. An option may be given by its
current name or by its old one, and by both of them; the last entry that names it counts.

`get?_normalize` says that a normalised profile has just what the profile says, and
`normalize_eq_error_iff` when a profile cannot be normalised.
-/
import Shorthand.Expansion.Profile
import Shorthand.Proofs.Data.LastEntry

namespace Shorthand.Expansion.Profile

open Data

/-- The last of the entries that name an option, by any of its names, gives it this value. -/
def Settles (entries : List (Scalar × Value)) (option : Scalar) (value : Value) : Prop :=
  ∃ before name after, entries.map normalizeEntry = before ++ (name, value) :: after ∧
    (name == option) = true ∧ ∀ later ∈ after, (later.1 == option) = false

/-- What a profile says about an option. -/
inductive Says : Value → Scalar → Value → Prop
  | short : Says (.text "xhtml".toList) (.text "selfClosingStyle".toList) (.text "xhtml".toList)
  | entry {profile : Value} {m : Mapping} {option : Scalar} {value : Value} :
    profile.mapping? = some m → Settles m.entries option value → Says profile option value

/-- In a profile stands a key that is no text, and no text with an underscore before it. -/
def Garbled (profile : Value) (key : Scalar) : Prop :=
  ∃ m, profile.mapping? = some m ∧
    ∃ before value after, m.entries = before ++ (key, value) :: after ∧ (∀ t, key ≠ .text t) ∧
      ∀ e ∈ before, ∃ t, e.1 = .text t ∧ '_' ∉ t

/-! ## Names -/

theorem OldName.underscore_mem_spelling (old : OldName) : '_' ∈ old.spelling := by
  cases old <;> decide

theorem OldName.current_ne_spelling (old old' : OldName) : old.current ≠ old'.spelling := by
  have hplain : '_' ∉ old.current := by cases old <;> decide
  exact fun h => hplain (h ▸ old'.underscore_mem_spelling)

theorem OldName.ofSpelling?_spelling (old : OldName) : ofSpelling? old.spelling = some old := by
  cases old <;> decide

theorem OldName.ofSpelling?_eq_some {t : Text} {old : OldName} (h : ofSpelling? t = some old) :
    t = old.spelling := by
  have hfound := List.find?_some h
  exact (eq_of_beq hfound).symm

theorem normalizeEntry_old (old : OldName) (v : Value) :
    normalizeEntry (.text old.spelling, v) = (.text old.current, old.convert v) := by
  simp only [normalizeEntry, old.ofSpelling?_spelling]

/-- An entry that is not under an old name passes through. -/
theorem normalizeEntry_other {k : Scalar} (h : ∀ old : OldName, k ≠ .text old.spelling) (v : Value) :
    normalizeEntry (k, v) = (k, v) := by
  cases k with
  | text t =>
    cases hold : OldName.ofSpelling? t with
    | none => simp only [normalizeEntry, hold]
    | some old => exact absurd (congrArg Scalar.text (OldName.ofSpelling?_eq_some hold)) (h old)
  | null | bool | int | float | date | moment | bytes => rfl

theorem normalizeEntry_plain {e : Scalar × Value} (h : ∃ t, e.1 = .text t ∧ '_' ∉ t) :
    normalizeEntry e = e := by
  obtain ⟨k, v⟩ := e
  obtain ⟨t, rfl, ht⟩ := h
  refine normalizeEntry_other (fun old hk => ht ?_) v
  rw [Scalar.text.inj hk]
  exact old.underscore_mem_spelling

/-! ## Telling old names from current ones -/

section Telling

variable {entries : List (Scalar × Value)}

theorem usesOldNames_text {t : Text} {v : Value} :
    usesOldNames ((.text t, v) :: entries) = if '_' ∈ t then .ok true else usesOldNames entries := by
  simp only [usesOldNames, List.contains_iff_mem]

theorem usesOldNames_other {k : Scalar} {v : Value} (h : ∀ t, k ≠ .text t) :
    usesOldNames ((k, v) :: entries) = .error ⟨k⟩ := by
  cases k with
  | text t => exact absurd rfl (h t)
  | null | bool | int | float | date | moment | bytes => rfl

theorem usesOldNames_eq_false (h : usesOldNames entries = .ok false) :
    ∀ e ∈ entries, ∃ t, e.1 = .text t ∧ '_' ∉ t := by
  induction entries with
  | nil => simp
  | cons e rest ih =>
    obtain ⟨k, v⟩ := e
    by_cases hk : ∃ t, k = .text t
    · obtain ⟨t, rfl⟩ := hk
      rw [usesOldNames_text] at h
      split at h
      · cases h
      next ht => exact List.forall_mem_cons.2 ⟨⟨t, rfl, ht⟩, ih h⟩
    · rw [usesOldNames_other (not_exists.1 hk)] at h
      cases h

theorem usesOldNames_eq_error_iff {key : Scalar} :
    usesOldNames entries = .error ⟨key⟩ ↔
      ∃ before value after, entries = before ++ (key, value) :: after ∧ (∀ t, key ≠ .text t) ∧
        ∀ e ∈ before, ∃ t, e.1 = .text t ∧ '_' ∉ t := by
  induction entries with
  | nil => simp [usesOldNames]
  | cons e rest ih =>
    obtain ⟨k, v⟩ := e
    by_cases hk : ∃ t, k = .text t
    · obtain ⟨t, rfl⟩ := hk
      rw [usesOldNames_text]
      constructor
      · intro h
        split at h
        · cases h
        next ht =>
          obtain ⟨before, value, after, rfl, hkey, hbefore⟩ := ih.1 h
          exact ⟨_, value, after, rfl, hkey, List.forall_mem_cons.2 ⟨⟨t, rfl, ht⟩, hbefore⟩⟩
      · rintro ⟨before, value, after, hsplit, hkey, hbefore⟩
        cases before with
        | nil =>
          cases hsplit
          exact absurd rfl (hkey t)
        | cons p before =>
          obtain ⟨hp, hrest⟩ := List.cons.inj hsplit
          obtain ⟨⟨s, hs, hplain⟩, hbefore⟩ := List.forall_mem_cons.1 hbefore
          rw [← hp, Scalar.text.injEq] at hs
          rw [if_neg (hs ▸ hplain)]
          exact ih.2 ⟨before, value, after, hrest, hkey, hbefore⟩
    · rw [usesOldNames_other (not_exists.1 hk)]
      constructor
      · intro h
        cases h
        exact ⟨[], v, rest, rfl, not_exists.1 hk, by simp⟩
      · rintro ⟨before, value, after, hsplit, hkey, hbefore⟩
        cases before with
        | nil =>
          cases hsplit
          rfl
        | cons p before =>
          obtain ⟨hp, -⟩ := List.cons.inj hsplit
          obtain ⟨s, hs, -⟩ := hbefore p List.mem_cons_self
          exact absurd ⟨s, by rw [← hs, ← hp]⟩ hk

end Telling

/-! ## Normal form -/

/-- A mapping in normal form is that of its entries under their current names, also when
none of them is under an old one. -/
theorem normalize_mapping {profile : Value} {m : Mapping} (h : profile.mapping? = some m) :
    normalize profile = (usesOldNames m.entries).map fun _ => Dict.ofList (m.entries.map normalizeEntry) := by
  cases profile with
  | mapping entries =>
    cases h
    simp only [normalize, bind, Except.bind]
    cases hold : usesOldNames (Dict.ofList entries).entries with
    | error why => rfl
    | ok old =>
      cases old with
      | true => rfl
      | false =>
        have hplain := List.map_congr_left fun e he => normalizeEntry_plain (usesOldNames_eq_false hold e he)
        rw [hplain, List.map_id']
        rfl
  | scalar | list | set => cases h

theorem normalize_short : normalize (.text "xhtml".toList) =
    .ok (Dict.ofList [(.text "selfClosingStyle".toList, .text "xhtml".toList)]) := rfl

/-- Anything else that is no mapping is no profile. -/
theorem normalize_none {profile : Value} (h : profile.mapping? = none)
    (hne : profile ≠ .text "xhtml".toList) : normalize profile = .ok {} := by
  cases profile with
  | mapping => cases h
  | scalar s =>
    cases s with
    | text t =>
      have ht : t ≠ "xhtml".toList := fun ht => hne (congrArg Value.text ht)
      simp only [normalize, if_neg ht]
    | null | bool | int | float | date | moment | bytes => rfl
  | list | set => rfl

theorem exists_normalize_of_none {profile : Value} (h : profile.mapping? = none) :
    ∃ normal, normalize profile = .ok normal := by
  by_cases hshort : profile = .text "xhtml".toList
  · exact ⟨_, hshort ▸ normalize_short⟩
  · exact ⟨_, normalize_none h hshort⟩

theorem normalize_eq_error_iff {profile : Value} {key : Scalar} :
    normalize profile = .error ⟨key⟩ ↔ Garbled profile key := by
  cases hm : profile.mapping? with
  | none =>
    obtain ⟨normal, hnormal⟩ := exists_normalize_of_none hm
    simp [hnormal, Garbled, hm]
  | some m =>
    simp only [Garbled, hm, Option.some.injEq, exists_eq_left', ← usesOldNames_eq_error_iff]
    rw [normalize_mapping hm]
    cases usesOldNames m.entries <;> simp [Except.map]

theorem exists_normalize_iff {profile : Value} :
    (∃ normal, normalize profile = .ok normal) ↔ ∀ key, ¬ Garbled profile key := by
  simp only [← normalize_eq_error_iff]
  cases normalize profile with
  | error why => simpa using ⟨why.key, rfl⟩
  | ok normal => simp

theorem says_of_no_mapping {profile : Value} (h : profile.mapping? = none) {option : Scalar} {value : Value} :
    Says profile option value ↔ profile = .text "xhtml".toList ∧
      option = .text "selfClosingStyle".toList ∧ value = .text "xhtml".toList := by
  constructor
  · intro hsays
    cases hsays with
    | short => exact ⟨rfl, rfl, rfl⟩
    | entry hm =>
      rw [h] at hm
      cases hm
  · rintro ⟨rfl, rfl, rfl⟩
    exact .short

theorem says_of_mapping {profile : Value} {m : Mapping} (h : profile.mapping? = some m) {option : Scalar}
    {value : Value} : Says profile option value ↔ Settles m.entries option value := by
  constructor
  · intro hsays
    cases hsays with
    | short => cases h
    | entry hm hsettles =>
      rw [h, Option.some.injEq] at hm
      exact hm ▸ hsettles
  · exact .entry h

theorem settles_iff {entries : List (Scalar × Value)} {option : Scalar} {value : Value} :
    (Dict.ofList (entries.map normalizeEntry)).get? option = some value ↔ Settles entries option value := by
  rw [Dict.get?_ofList_eq_some_iff]
  constructor
  · rintro ⟨before, ⟨name, v⟩, after, hsplit, hname, rfl, hafter⟩
    exact ⟨before, name, after, hsplit, hname, hafter⟩
  · rintro ⟨before, name, after, hsplit, hname, hafter⟩
    exact ⟨before, (name, value), after, hsplit, hname, rfl, hafter⟩

/-- Where an entry names an option, some entry settles it. -/
theorem exists_settles {entries : List (Scalar × Value)} {e : Scalar × Value} (he : e ∈ entries) :
    ∃ value, Settles entries (normalizeEntry e).1 value := by
  simp only [← settles_iff, ← Option.ne_none_iff_exists', ne_eq, Dict.get?_ofList_eq_none_iff]
  intro hnone
  have hself := hnone (normalizeEntry e) (List.mem_map_of_mem he)
  simp at hself

/-- An option is given by its old name as well as by its current one. -/
theorem says_of_named {profile : Value} {m : Mapping} (hm : profile.mapping? = some m) (old : OldName)
    (h : m.contains (.text old.spelling) = true ∨ m.contains (.text old.current) = true) :
    ∃ value, Says profile (.text old.current) value := by
  simp only [Dict.contains, List.any_eq_true, Scalar.beq_text_iff] at h
  obtain ⟨⟨k, v⟩, he, rfl⟩ | ⟨⟨k, v⟩, he, rfl⟩ := h
  · obtain ⟨value, hvalue⟩ := exists_settles he
    rw [normalizeEntry_old] at hvalue
    exact ⟨value, .entry hm hvalue⟩
  · obtain ⟨value, hvalue⟩ := exists_settles he
    rw [normalizeEntry_other fun old' hk => old.current_ne_spelling old' (Scalar.text.inj hk)] at hvalue
    exact ⟨value, .entry hm hvalue⟩

/-- **A profile in normal form has what the profile says.** -/
theorem get?_normalize {profile : Value} {normal : Mapping} (h : normalize profile = .ok normal)
    {option : Scalar} {value : Value} : normal.get? option = some value ↔ Says profile option value := by
  cases hm : profile.mapping? with
  | some m =>
    rw [normalize_mapping hm] at h
    rw [says_of_mapping hm]
    cases hold : usesOldNames m.entries with
    | error why =>
      rw [hold] at h
      cases h
    | ok old =>
      rw [hold] at h
      cases h
      exact settles_iff
  | none =>
    rw [says_of_no_mapping hm]
    by_cases hshort : profile = .text "xhtml".toList
    · rw [hshort, normalize_short] at h
      cases h
      rw [Dict.get?_singleton, BEq.comm]
      by_cases hname : option = .text "selfClosingStyle".toList
      · rw [if_pos (Scalar.beq_text_iff.2 hname), Option.some.injEq]
        exact ⟨fun hvalue => ⟨hshort, hname, hvalue.symm⟩, fun hsays => hsays.2.2.symm⟩
      · rw [if_neg fun heq => hname (Scalar.beq_text_iff.1 heq)]
        exact ⟨nofun, fun hsays => absurd hsays.2.1 hname⟩
    · rw [normalize_none hm hshort] at h
      cases h
      simp only [hshort, false_and, iff_false]
      exact nofun

theorem not_says_iff {profile : Value} {normal : Mapping} (h : normalize profile = .ok normal)
    {option : Scalar} : (∀ value, ¬ Says profile option value) ↔ normal.get? option = none := by
  simp only [← get?_normalize h, Option.eq_none_iff_forall_ne_some, ne_eq]

end Shorthand.Expansion.Profile
