/-
The order of a dictionary into which entries are put one after the other. A key that is there keeps
its place, so that the keys are the first occurrences among those that were put in
(`FirstOccurrences.insertAll`), also when some are left out that are there already.
-/
import Mathlib.Data.List.Basic
import Shorthand.Proofs.Data.LastEntry

namespace Shorthand.Data

variable {κ α : Type} [BEq κ]

/-- The members of a sequence that pass, each once and in the order in which they first occur. -/
structure FirstOccurrences (passes : κ → Prop) (sequence members : List κ) : Prop where
  mem_iff : ∀ k, k ∈ members ↔ k ∈ sequence ∧ passes k
  order : members.Pairwise fun k k' => sequence.idxOf k < sequence.idxOf k'

namespace FirstOccurrences

variable {passes : κ → Prop} {sequence members : List κ} {k : κ}

theorem nil : FirstOccurrences passes [] [] := ⟨fun _ => by simp, .nil⟩

variable [LawfulBEq κ]

/-- What stands in a sequence stands at the same place in a longer one. -/
theorem order_append (h : FirstOccurrences passes sequence members) (more : List κ) :
    members.Pairwise fun k k' => (sequence ++ more).idxOf k < (sequence ++ more).idxOf k' := by
  refine h.order.imp_of_mem fun {k k'} hk hk' hlt => ?_
  rwa [List.idxOf_append_of_mem ((h.mem_iff k).1 hk).1, List.idxOf_append_of_mem ((h.mem_iff k').1 hk').1]

/-- Nothing new comes from a key that occurred before or does not pass. -/
theorem append_old (h : FirstOccurrences passes sequence members) (hk : k ∈ sequence ∨ ¬ passes k) :
    FirstOccurrences passes (sequence ++ [k]) members := by
  refine ⟨fun k' => ?_, h.order_append [k]⟩
  rw [h.mem_iff, List.mem_append, List.mem_singleton]
  constructor
  · exact fun hk' => ⟨.inl hk'.1, hk'.2⟩
  · rintro ⟨hmem | rfl, hpasses⟩
    · exact ⟨hmem, hpasses⟩
    · exact ⟨hk.resolve_right (not_not_intro hpasses), hpasses⟩

theorem append_new (h : FirstOccurrences passes sequence members) (hk : passes k) (hnew : k ∉ members) :
    FirstOccurrences passes (sequence ++ [k]) (members ++ [k]) := by
  have hnot : k ∉ sequence := fun hmem => hnew ((h.mem_iff k).2 ⟨hmem, hk⟩)
  refine ⟨fun k' => ?_, List.pairwise_append.2 ⟨h.order_append [k], List.pairwise_singleton _ _, ?_⟩⟩
  · rw [List.mem_append, List.mem_append, List.mem_singleton, h.mem_iff]
    constructor
    · rintro (⟨hmem, hpasses⟩ | rfl)
      · exact ⟨.inl hmem, hpasses⟩
      · exact ⟨.inr rfl, hk⟩
    · rintro ⟨hmem | rfl, hpasses⟩
      · exact .inl ⟨hmem, hpasses⟩
      · exact .inr rfl
  · intro k' hk' last hlast
    obtain rfl := List.mem_singleton.1 hlast
    have hbefore := ((h.mem_iff k').1 hk').1
    rw [List.idxOf_append_of_mem hbefore, List.idxOf_append_of_notMem hnot]
    exact Nat.lt_add_right _ (List.idxOf_lt_length_iff.2 hbefore)

end FirstOccurrences

namespace Dict

variable {entries : List (κ × α)} {d : Dict κ α} {k : κ} {v : α}

section Insert

variable [LawfulBEq κ]

theorem map_fst_insertEntry_of_mem (h : k ∈ entries.map Prod.fst) :
    (insertEntry k v entries).map Prod.fst = entries.map Prod.fst := by
  induction entries with
  | nil => cases h
  | cons e rest ih =>
    rw [insertEntry]
    split
    next => rfl
    next hne =>
      obtain rfl | hrest := List.mem_cons.1 h
      · exact absurd BEq.rfl hne
      · rw [List.map_cons, List.map_cons, ih hrest]

theorem keys_insert_of_mem (h : k ∈ d.keys) : (d.insert k v).keys = d.keys := map_fst_insertEntry_of_mem h

theorem keys_insert_of_not_mem (h : k ∉ d.keys) : (d.insert k v).keys = d.keys ++ [k] := by
  have hfresh : ∀ e ∈ d.entries, (e.1 == k) = false := fun e he =>
    beq_false_of_ne fun heq => h (List.mem_map.2 ⟨e, he, heq⟩)
  calc (d.insert k v).keys
    _ = (d.entries ++ [(k, v)]).map Prod.fst := congrArg _ (insertEntry_of_not_mem hfresh)
    _ = d.keys ++ [k] := List.map_append

/-- Where equal keys are the same, the entries are some of those that were put in. -/
theorem mem_of_mem_ofList {e : κ × α} (h : e ∈ (ofList entries).entries) : e ∈ entries := by
  obtain ⟨before, e', after, rfl, hkey, hvalue, -⟩ := get?_ofList_eq_some_iff.1 (get?_of_mem h)
  obtain rfl : e' = e := Prod.ext (eq_of_beq hkey) hvalue
  exact List.mem_append_right before List.mem_cons_self

end Insert

theorem insertAll_append (d : Dict κ α) (entries more : List (κ × α)) :
    d.insertAll (entries ++ more) = (d.insertAll entries).insertAll more := List.foldl_append

end Dict

variable [LawfulBEq κ]

/-- **Putting in one named value after the other keeps the first occurrences of the names**, also when
names that have occurred are skipped. A name without a value puts nothing in. -/
theorem FirstOccurrences.insertAll {value? : κ → Option α} {sequence : List κ} {d : Dict κ α}
    (h : FirstOccurrences (fun k => (value? k).isSome) sequence d.keys) (names : List κ) (skip : κ → Bool)
    (hskip : ∀ k, skip k = true → k ∈ sequence) :
    FirstOccurrences (fun k => (value? k).isSome) (sequence ++ names)
      (d.insertAll ((names.filter (!skip ·)).filterMap fun k => (value? k).map (k, ·))).keys := by
  induction names generalizing sequence d with
  | nil => rwa [List.append_nil]
  | cons k names ih =>
    have hlater : ∀ k', skip k' = true → k' ∈ sequence ++ [k] := fun k' hk' =>
      List.mem_append_left _ (hskip k' hk')
    rw [← List.singleton_append, ← List.append_assoc, List.singleton_append]
    cases hk : skip k with
    | true =>
      rw [List.filter_cons_of_neg (by simp [hk])]
      exact ih (h.append_old (.inl (hskip k hk))) hlater
    | false =>
      rw [List.filter_cons_of_pos (by simp [hk])]
      cases hv : value? k with
      | none =>
        rw [List.filterMap_cons_none (by rw [hv]; rfl)]
        exact ih (h.append_old (.inr (by simp [hv]))) hlater
      | some v =>
        rw [List.filterMap_cons_some (b := (k, v)) (by rw [hv]; rfl)]
        refine @ih _ (d.insert k v) ?_ hlater
        by_cases hmem : k ∈ d.keys
        · rw [Dict.keys_insert_of_mem hmem]
          exact h.append_old (.inl ((h.mem_iff k).1 hmem).1)
        · rw [Dict.keys_insert_of_not_mem hmem]
          exact h.append_new (by simp [hv]) hmem

/-- None of the names is skipped. -/
theorem FirstOccurrences.insertAll_all {value? : κ → Option α} {sequence : List κ} {d : Dict κ α}
    (h : FirstOccurrences (fun k => (value? k).isSome) sequence d.keys) (names : List κ) :
    FirstOccurrences (fun k => (value? k).isSome) (sequence ++ names)
      (d.insertAll (names.filterMap fun k => (value? k).map (k, ·))).keys := by
  have hall := h.insertAll names (fun _ => false) nofun
  rwa [show names.filter (fun _ => !false) = names from List.filter_eq_self.2 fun _ _ => rfl] at hall

end Shorthand.Data
