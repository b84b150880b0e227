/-
Dictionaries made of a list of entries. The list may have several entries for one key: the
last of them decides, and each key and each value of the dictionary is one of the list.
-/
import Shorthand.Data.Value

namespace Shorthand.Data

theorem Scalar.beq_text_iff {k : Scalar} {t : Text} : (k == .text t) = true ↔ k = .text t := by
  rw [Scalar.beq_iff]
  constructor
  · intro h
    cases k with
    | text s => exact congrArg Scalar.text (Identity.text.inj h)
    | float x =>
      simp only [Scalar.identity] at h
      split at h <;> cases h
    | moment m =>
      simp only [Scalar.identity] at h
      split at h <;> cases h
    | null | bool | int | date | bytes => cases h
  · rintro rfl
    rfl

namespace Dict

variable {κ α : Type} [BEq κ] {entries : List (κ × α)} {d : Dict κ α} {k : κ} {v : α}

theorem mem_of_get? (h : d.get? k = some v) : ∃ e ∈ d.entries, (e.1 == k) = true ∧ e.2 = v := by
  obtain ⟨e, he, hv⟩ := Option.map_eq_some_iff.1 h
  exact ⟨e, List.mem_of_find?_eq_some he, by simpa using List.find?_some he, hv⟩

theorem mem_insertEntry {e : κ × α} (h : e ∈ insertEntry k v entries) :
    (e.1 = k ∨ ∃ e' ∈ entries, e'.1 = e.1) ∧ (e.2 = v ∨ ∃ e' ∈ entries, e'.2 = e.2) := by
  refine ⟨fst_mem_insertEntry h, ?_⟩
  induction entries with
  | nil =>
    rw [insertEntry, List.mem_singleton] at h
    exact .inl (by rw [h])
  | cons p rest ih =>
    rw [insertEntry] at h
    split at h
    · rcases List.mem_cons.1 h with rfl | h
      · exact .inl rfl
      · exact .inr ⟨e, List.mem_cons_of_mem p h, rfl⟩
    · rcases List.mem_cons.1 h with rfl | h
      · exact .inr ⟨p, List.mem_cons_self, rfl⟩
      · rcases ih h with hv | ⟨e', he', hv⟩
        · exact .inl hv
        · exact .inr ⟨e', List.mem_cons_of_mem p he', hv⟩

/-- What holds of the parts of the entries that are inserted goes on to hold of all. -/
theorem forall_mem_insertAll {p : κ → Prop} {q : α → Prop} (hd : ∀ e ∈ d.entries, p e.1 ∧ q e.2)
    (h : ∀ e ∈ entries, p e.1 ∧ q e.2) : ∀ e ∈ (d.insertAll entries).entries, p e.1 ∧ q e.2 := by
  induction entries generalizing d with
  | nil => exact hd
  | cons p₀ rest ih =>
    obtain ⟨hfirst, hrest⟩ := List.forall_mem_cons.1 h
    refine ih (fun e he => ?_) hrest
    obtain ⟨hkey, hvalue⟩ := mem_insertEntry he
    refine ⟨?_, ?_⟩
    · rcases hkey with hkey | ⟨e', he', hkey⟩
      · exact hkey ▸ hfirst.1
      · exact hkey ▸ (hd e' he').1
    · rcases hvalue with hvalue | ⟨e', he', hvalue⟩
      · exact hvalue ▸ hfirst.2
      · exact hvalue ▸ (hd e' he').2

theorem forall_mem_ofList {p : κ → Prop} {q : α → Prop} (h : ∀ e ∈ entries, p e.1 ∧ q e.2) :
    ∀ e ∈ (ofList entries).entries, p e.1 ∧ q e.2 :=
  forall_mem_insertAll (fun _ he => nomatch he) h

theorem insertEntry_of_not_mem (h : ∀ e ∈ entries, (e.1 == k) = false) :
    insertEntry k v entries = entries ++ [(k, v)] := by
  induction entries with
  | nil => rfl
  | cons e rest ih =>
    obtain ⟨he, hrest⟩ := List.forall_mem_cons.1 h
    rw [insertEntry, he, if_neg Bool.false_ne_true, ih hrest, List.cons_append]

/-- Entries for other keys are put behind those that are there. -/
theorem entries_insertAll (h : (d.entries ++ entries).Pairwise fun a b => (a.1 == b.1) = false) :
    (d.insertAll entries).entries = d.entries ++ entries := by
  induction entries generalizing d with
  | nil => exact (List.append_nil _).symm
  | cons e rest ih =>
    have hfirst : ∀ e' ∈ d.entries, (e'.1 == e.1) = false := fun e' he' =>
      (List.pairwise_append.1 h).2.2 e' he' e List.mem_cons_self
    have hinsert : (d.insert e.1 e.2).entries = d.entries ++ [e] := insertEntry_of_not_mem hfirst
    have hsplit : d.entries ++ e :: rest = (d.insert e.1 e.2).entries ++ rest := by
      rw [hinsert, List.append_assoc, List.singleton_append]
    rw [hsplit] at h ⊢
    exact ih h

/-- A dictionary is made of its entries. -/
theorem ofList_entries (d : Dict κ α) : ofList d.entries = d := by
  have h : (ofList d.entries).entries = d.entries := entries_insertAll d.distinct
  cases hd : ofList d.entries
  cases d
  rw [hd] at h
  cases h
  rfl

variable [EquivBEq κ]

theorem get?_congr {a : κ} (h : (k == a) = true) (d : Dict κ α) : d.get? k = d.get? a := by
  rw [get?, get?]
  congr 2
  funext e
  exact BEq.congr_right h

theorem get?_of_mem {e : κ × α} (h : e ∈ d.entries) : d.get? e.1 = some e.2 := by
  have hd := d.distinct
  rw [get?]
  generalize d.entries = entries at h hd
  induction entries with
  | nil => cases h
  | cons p rest ih =>
    obtain ⟨hfirst, hrest⟩ := List.pairwise_cons.1 hd
    rcases List.mem_cons.1 h with rfl | h
    · simp
    · rw [List.find?_cons, hfirst e h]
      exact ih h hrest

theorem get?_eq_some_iff_mem : d.get? k = some v ↔ ∃ e ∈ d.entries, (e.1 == k) = true ∧ e.2 = v := by
  refine ⟨mem_of_get?, ?_⟩
  rintro ⟨e, he, hk, rfl⟩
  rw [← get?_congr hk, get?_of_mem he]

/-- Entries of which no two are for one key are looked up as they are. -/
theorem get?_ofList_eq_some_iff_mem (h : entries.Pairwise fun a b => (a.1 == b.1) = false) :
    (ofList entries).get? k = some v ↔ ∃ e ∈ entries, (e.1 == k) = true ∧ e.2 = v := by
  have hget : (ofList entries).get? k = get? ⟨entries, h⟩ k := by
    rw [ofList, get?_insertAll _ _ _ h, get?_empty, Option.or_none, get?]
  rw [hget, get?_eq_some_iff_mem]

theorem get?_insertAll_eq (d : Dict κ α) (entries : List (κ × α)) (k : κ) :
    (d.insertAll entries).get? k = ((entries.reverse.find? (·.1 == k)).map (·.2)).or (d.get? k) := by
  induction entries generalizing d with
  | nil => simp [insertAll]
  | cons e rest ih =>
    show (insertAll (d.insert e.1 e.2) rest).get? k = _
    rw [ih, get?_insert, List.reverse_cons, List.find?_append, List.find?_cons]
    cases rest.reverse.find? (·.1 == k) with
    | some last => rfl
    | none => by_cases he : (e.1 == k) = true <;> simp [he]

theorem get?_singleton (k a : κ) (v : α) :
    (ofList [(k, v)]).get? a = if k == a then some v else none :=
  get?_insert empty k a v

theorem get?_ofList_append {others : List (κ × α)} (h : ∀ e ∈ others, (e.1 == k) = false) :
    (ofList (entries ++ others)).get? k = (ofList entries).get? k := by
  have hnone : others.reverse.find? (·.1 == k) = none :=
    List.find?_eq_none.2 fun e he => by simp [h e (List.mem_reverse.1 he)]
  rw [ofList, get?_insertAll_eq, List.reverse_append, List.find?_append, hnone, Option.none_or, ofList,
    get?_insertAll_eq]

/-- **The last entry for a key decides.** -/
theorem get?_ofList_eq_some_iff :
    (ofList entries).get? k = some v ↔
      ∃ before e after, entries = before ++ e :: after ∧ (e.1 == k) = true ∧ e.2 = v ∧
        ∀ later ∈ after, (later.1 == k) = false := by
  rw [ofList, get?_insertAll_eq, get?_empty, Option.or_none, Option.map_eq_some_iff]
  constructor
  · rintro ⟨e, he, rfl⟩
    obtain ⟨hk, after, before, hsplit, hafter⟩ := List.find?_eq_some_iff_append.1 he
    refine ⟨before.reverse, e, after.reverse, ?_, hk, rfl, fun later hlater => ?_⟩
    · rw [← List.reverse_reverse entries, hsplit]
      simp
    · simpa using hafter later (List.mem_reverse.1 hlater)
  · rintro ⟨before, e, after, rfl, hk, rfl, hafter⟩
    refine ⟨e, List.find?_eq_some_iff_append.2 ⟨hk, after.reverse, before.reverse, by simp, ?_⟩, rfl⟩
    intro later hlater
    simpa using hafter later (List.mem_reverse.1 hlater)

theorem get?_ofList_eq_none_iff :
    (ofList entries).get? k = none ↔ ∀ e ∈ entries, (e.1 == k) = false := by
  rw [ofList, get?_insertAll_eq, get?_empty, Option.or_none, Option.map_eq_none_iff, List.find?_eq_none]
  simp

/-- Entries that have the same value wherever they are for one key. -/
theorem get?_ofList_eq_some_iff_of_forall {w : α} (h : ∀ e ∈ entries, (e.1 == k) = true → e.2 = v) :
    (ofList entries).get? k = some w ↔ (∃ e ∈ entries, (e.1 == k) = true) ∧ w = v := by
  have honly {w : α} (hw : (ofList entries).get? k = some w) : (∃ e ∈ entries, (e.1 == k) = true) ∧ w = v := by
    obtain ⟨before, e, after, hsplit, hk, rfl, -⟩ := get?_ofList_eq_some_iff.1 hw
    have he : e ∈ entries := hsplit ▸ List.mem_append_right before List.mem_cons_self
    exact ⟨⟨e, he, hk⟩, h e he hk⟩
  refine ⟨honly, ?_⟩
  rintro ⟨⟨e, he, hk⟩, rfl⟩
  cases hget : (ofList entries).get? k with
  | none => exact absurd hk (Bool.eq_false_iff.1 (get?_ofList_eq_none_iff.1 hget e he))
  | some w => rw [(honly hget).2]

end Dict

end Shorthand.Data
