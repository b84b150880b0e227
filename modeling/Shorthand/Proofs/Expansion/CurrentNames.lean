/-
Profiles with texts for keys, in any mixture of names. Such a profile has a normal form, in which
every option stands under its current name with what the last entry for it says
(`normalize_currentNames`); the normal form of a normal form is that form itself.
-/
import Shorthand.Proofs.Expansion.OptionNames

namespace Shorthand.Expansion.Profile

open Data

namespace OldName

/-- A key names an option, the old way or the current one. -/
def Names (old : OldName) (k : Scalar) : Prop := k = .text old.spelling ∨ k = .text old.current

/-- What an entry for an option says about it. -/
def valueIn (old : OldName) (e : Scalar × Value) : Value :=
  if e.1 = .text old.spelling then old.convert e.2 else e.2

theorem spelling_inj {old old' : OldName} (h : old.spelling = old'.spelling) : old = old' := by
  have hsome := ofSpelling?_spelling old
  rw [h, ofSpelling?_spelling, Option.some.injEq] at hsome
  exact hsome.symm

theorem current_inj {old old' : OldName} (h : old.current = old'.current) : old = old' := by
  have hinj : ∀ a ∈ all, ∀ b ∈ all, a.current = b.current → a = b := by decide
  have hall (old : OldName) : old ∈ all := by cases old <;> decide
  exact hinj old (hall old) old' (hall old') h

end OldName

/-- The last of the entries for an option says this about it. -/
def LastNamed (entries : List (Scalar × Value)) (old : OldName) (value : Value) : Prop :=
  ∃ before e after, entries = before ++ e :: after ∧ old.Names e.1 ∧ old.valueIn e = value ∧
    ∀ later ∈ after, ¬ old.Names later.1

/-! ## One entry -/

/-- An entry is under an old name, or passes through. -/
theorem normalizeEntry_cases (e : Scalar × Value) :
    (∃ old : OldName, e.1 = .text old.spelling ∧ normalizeEntry e = (.text old.current, old.convert e.2)) ∨
    (∀ old : OldName, e.1 ≠ .text old.spelling) ∧ normalizeEntry e = e := by
  obtain ⟨k, v⟩ := e
  by_cases hold : ∃ old : OldName, k = .text old.spelling
  · obtain ⟨old, rfl⟩ := hold
    exact .inl ⟨old, rfl, normalizeEntry_old old v⟩
  · exact .inr ⟨not_exists.1 hold, normalizeEntry_other (not_exists.1 hold) v⟩

theorem normalizeEntry_ne_spelling (old : OldName) (e : Scalar × Value) :
    (normalizeEntry e).1 ≠ .text old.spelling := by
  obtain ⟨old', -, heq⟩ | ⟨hother, heq⟩ := normalizeEntry_cases e
  · rw [heq]
    exact fun h => old'.current_ne_spelling old (Scalar.text.inj h)
  · rw [heq]
    exact hother old

theorem normalizeEntry_beq_current_iff (old : OldName) (e : Scalar × Value) :
    ((normalizeEntry e).1 == .text old.current) = true ↔ old.Names e.1 := by
  rw [Scalar.beq_text_iff]
  obtain ⟨old', hold, heq⟩ | ⟨hother, heq⟩ := normalizeEntry_cases e
  · rw [heq, OldName.Names, hold, Scalar.text.injEq, Scalar.text.injEq, Scalar.text.injEq]
    constructor
    · exact fun h => .inl (congrArg _ (OldName.current_inj h))
    · rintro (h | h)
      · exact congrArg _ (OldName.spelling_inj h)
      · exact absurd h.symm (old.current_ne_spelling old')
  · rw [heq]
    exact (or_iff_right (hother old)).symm

theorem normalizeEntry_value {old : OldName} {e : Scalar × Value} (h : old.Names e.1) :
    (normalizeEntry e).2 = old.valueIn e := by
  obtain ⟨old', hold, heq⟩ | ⟨hother, heq⟩ := normalizeEntry_cases e
  · have hname := (normalizeEntry_beq_current_iff old e).2 h
    rw [heq, Scalar.beq_text_iff] at hname
    obtain rfl := OldName.current_inj (Scalar.text.inj hname)
    rw [heq, OldName.valueIn, if_pos hold]
  · rw [heq, OldName.valueIn, if_neg (hother old)]

section Other

variable {k : Scalar} {e : Scalar × Value}

/-- An entry for a key that names no option passes through. -/
theorem normalizeEntry_of_beq (hk : ∀ old : OldName, ¬ old.Names k) (h : (e.1 == k) = true) :
    normalizeEntry e = e := by
  obtain ⟨old, hold, -⟩ | ⟨-, heq⟩ := normalizeEntry_cases e
  · rw [hold, BEq.comm, Scalar.beq_text_iff] at h
    exact absurd (.inl h) (hk old)
  · exact heq

/-- No other entry comes under such a key. -/
theorem normalizeEntry_beq_iff (hk : ∀ old : OldName, ¬ old.Names k) :
    ((normalizeEntry e).1 == k) = true ↔ (e.1 == k) = true := by
  constructor
  · intro h
    obtain ⟨old, -, heq⟩ | ⟨-, heq⟩ := normalizeEntry_cases e
    · rw [heq, BEq.comm, Scalar.beq_text_iff] at h
      exact absurd (.inr h) (hk old)
    · rwa [heq] at h
  · intro h
    rwa [normalizeEntry_of_beq hk h]

end Other

/-! ## All entries -/

section Entries

variable {entries : List (Scalar × Value)}

theorem settles_iff_exists {option : Scalar} {value : Value} :
    Settles entries option value ↔ ∃ before e after, entries = before ++ e :: after ∧
      ((normalizeEntry e).1 == option) = true ∧ (normalizeEntry e).2 = value ∧
      ∀ later ∈ after, ((normalizeEntry later).1 == option) = false := by
  constructor
  · rintro ⟨before, name, after, hsplit, hname, hafter⟩
    obtain ⟨before', rest, rfl, rfl, hrest⟩ := List.map_eq_append_iff.1 hsplit
    obtain ⟨e, after', rfl, he, rfl⟩ := List.map_eq_cons_iff.1 hrest
    exact ⟨before', e, after', rfl, he ▸ hname, congrArg Prod.snd he, List.forall_mem_map.1 hafter⟩
  · rintro ⟨before, e, after, rfl, hname, rfl, hafter⟩
    exact ⟨before.map normalizeEntry, _, after.map normalizeEntry, by rw [List.map_append, List.map_cons],
      hname, List.forall_mem_map.2 hafter⟩

theorem settles_current_iff (old : OldName) {value : Value} :
    Settles entries (.text old.current) value ↔ LastNamed entries old value := by
  simp only [settles_iff_exists, LastNamed, normalizeEntry_beq_current_iff, ← Bool.not_eq_true]
  constructor
  · rintro ⟨before, e, after, hsplit, hname, hvalue, hafter⟩
    exact ⟨before, e, after, hsplit, hname, normalizeEntry_value hname ▸ hvalue, hafter⟩
  · rintro ⟨before, e, after, hsplit, hname, hvalue, hafter⟩
    exact ⟨before, e, after, hsplit, hname, (normalizeEntry_value hname).trans hvalue, hafter⟩

theorem settles_other_iff {k : Scalar} (hk : ∀ old : OldName, ¬ old.Names k) {value : Value} :
    Settles entries k value ↔ (Dict.ofList entries).get? k = some value := by
  simp only [settles_iff_exists, Dict.get?_ofList_eq_some_iff, ← Bool.not_eq_true, normalizeEntry_beq_iff hk]
  constructor
  · rintro ⟨before, e, after, hsplit, hname, hvalue, hafter⟩
    exact ⟨before, e, after, hsplit, hname, normalizeEntry_of_beq hk hname ▸ hvalue, hafter⟩
  · rintro ⟨before, e, after, hsplit, hname, hvalue, hafter⟩
    exact ⟨before, e, after, hsplit, hname, (normalizeEntry_of_beq hk hname).symm ▸ hvalue, hafter⟩

/-- Where no entry is under an old name, every entry passes through. -/
theorem map_normalizeEntry_eq (h : ∀ e ∈ entries, ∀ old : OldName, e.1 ≠ .text old.spelling) :
    entries.map normalizeEntry = entries := by
  rw [List.map_congr_left fun e he => normalizeEntry_other (h e he) e.2, List.map_id']

theorem normalizeEntry_text {e : Scalar × Value} (h : ∃ t, e.1 = .text t) :
    ∃ t, (normalizeEntry e).1 = .text t := by
  obtain ⟨old, -, heq⟩ | ⟨-, heq⟩ := normalizeEntry_cases e
  · exact ⟨old.current, congrArg Prod.fst heq⟩
  · rwa [heq]

end Entries

/-! ## Normal forms -/

section Normal

variable {profile : Value} {m : Mapping}

theorem normalize_of_text_keys (hm : profile.mapping? = some m) (htext : ∀ e ∈ m.entries, ∃ t, e.1 = .text t) :
    normalize profile = .ok (Dict.ofList (m.entries.map normalizeEntry)) := by
  rw [normalize_mapping hm]
  cases hold : usesOldNames m.entries with
  | ok old => rfl
  | error why =>
    obtain ⟨before, value, after, hsplit, hkey, -⟩ := usesOldNames_eq_error_iff.1 hold
    obtain ⟨t, ht⟩ := htext (why.key, value) (hsplit ▸ List.mem_append_right before List.mem_cons_self)
    exact absurd ht (hkey t)

/-- The keys of a normal form are texts and no old names. -/
theorem keys_normalized (htext : ∀ e ∈ m.entries, ∃ t, e.1 = .text t) :
    ∀ e ∈ (Dict.ofList (m.entries.map normalizeEntry)).entries,
      (∃ t, e.1 = .text t) ∧ ∀ old : OldName, e.1 ≠ .text old.spelling := by
  refine fun e he => (Dict.forall_mem_ofList
    (p := fun k => (∃ t, k = Scalar.text t) ∧ ∀ old : OldName, k ≠ .text old.spelling) (q := fun _ => True) ?_ e he).1
  exact List.forall_mem_map.2 fun e he =>
    ⟨⟨normalizeEntry_text (htext e he), fun old => normalizeEntry_ne_spelling old e⟩, trivial⟩

/-- A profile that has no option under an old name is its own normal form. -/
theorem normalize_ofMapping (htext : ∀ e ∈ m.entries, ∃ t, e.1 = .text t)
    (hcurrent : ∀ e ∈ m.entries, ∀ old : OldName, e.1 ≠ .text old.spelling) :
    normalize (.ofMapping m) = .ok m := by
  have hm : (Value.ofMapping m).mapping? = some m := congrArg some m.ofList_entries
  rw [normalize_of_text_keys hm htext, map_normalizeEntry_eq hcurrent, m.ofList_entries]

/-- **A profile has one normal form, by the current names of its options.** The keys of the profile are
texts, among them old names, current ones and any others, in any order. In the normal form, which one
entry after the other makes, no option is under an old name, and it is its own normal form. A profile
without underscores in its keys is in normal form. Under the current name of an option stands what the
last entry for that option says, whichever name this entry has, and any other key has the value that it
had. -/
theorem normalize_currentNames (hm : profile.mapping? = some m)
    (htext : ∀ e ∈ m.entries, ∃ t, e.1 = .text t) :
    ∃ normal, normalize profile = .ok normal ∧
      (∀ old : OldName, normal.contains (.text old.spelling) = false) ∧
      normalize (.ofMapping normal) = .ok normal ∧
      normal = Dict.ofList (m.entries.map normalizeEntry) ∧
      ((∀ e ∈ m.entries, ∀ t, e.1 = .text t → '_' ∉ t) → normal = m) ∧
      (∀ old value, normal.get? (.text old.current) = some value ↔ LastNamed m.entries old value) ∧
      ∀ k, (∀ old : OldName, ¬ old.Names k) → normal.get? k = m.get? k := by
  have hkeys := keys_normalized htext
  refine ⟨_, normalize_of_text_keys hm htext, fun old => ?_,
    normalize_ofMapping (fun e he => (hkeys e he).1) fun e he => (hkeys e he).2, rfl, fun hplain => ?_,
    fun old value => settles_iff.trans (settles_current_iff old), fun k hk => Option.ext fun value => ?_⟩
  · rw [Dict.contains, List.any_eq_false]
    exact fun e he hname => (hkeys e he).2 old (Scalar.beq_text_iff.1 hname)
  · rw [map_normalizeEntry_eq, m.ofList_entries]
    exact fun e he old hold => hplain e he _ hold old.underscore_mem_spelling
  · rw [settles_iff, settles_other_iff hk, m.ofList_entries]

end Normal

/-- The letter case of tags by its current name and then by its old one, the style of closing the other
way round, and a key with an underscore that is no old name. -/
theorem normalize_currentNames_mixed :
    let entries : List (Scalar × Value) := [(.text "tagCase".toList, .text "lower".toList),
      (.text "self_closing_tag".toList, .bool true), (.text "tag_case".toList, .text "Upper".toList),
      (.text "my_key".toList, .int 1), (.text "selfClosingStyle".toList, .text "xhtml".toList)]
    (Value.mapping entries).mapping? = some (Dict.ofList entries) ∧
    (∀ e ∈ (Dict.ofList entries).entries, ∃ t, e.1 = .text t) ∧
    ∃ normal, normalize (.mapping entries) = .ok normal ∧
      normal.get? (.text "tagCase".toList) = some (.text []) ∧
      normal.get? (.text "selfClosingStyle".toList) = some (.text "xhtml".toList) ∧
      normal.get? (.text "my_key".toList) = some (.int 1) ∧
      normalize (.ofMapping normal) = .ok normal := by
  intro entries
  have htext : ∀ e ∈ (Dict.ofList entries).entries, ∃ t, e.1 = .text t := by
    refine fun e he => (Dict.forall_mem_ofList (p := fun k => ∃ t, k = Scalar.text t) (q := fun _ => True) ?_ e he).1
    simp [entries]
  have hm : (Value.mapping entries).mapping? = some (Dict.ofList entries) := rfl
  obtain ⟨normal, hnormal, -, hagain, -, -, hnamed, hother⟩ := normalize_currentNames hm htext
  refine ⟨hm, htext, normal, hnormal, (hnamed .tagCase _).2 ?_, (hnamed .selfClosing _).2 ?_, ?_, hagain⟩
  · exact ⟨entries.take 2, entries[2], entries.drop 3, rfl, .inl rfl, rfl, by simp [entries, OldName.Names]; decide⟩
  · exact ⟨entries.take 4, entries[4], [], rfl, .inr rfl, rfl, by simp⟩
  · rw [hother]
    · rfl
    · intro old
      cases old <;> simp [OldName.Names] <;> decide

end Shorthand.Expansion.Profile
