/-
Dictionaries that keep the order in which keys were first inserted.

Keys are compared by an equivalence that may be coarser than equality: of two
equivalent keys the one inserted first stays, with the value inserted last. That
no two keys are equivalent is part of the type.
-/

namespace Shorthand.Data

variable {κ α : Type} [BEq κ]

/-- Replaces the value of a key that is there and appends an entry for one that is not. -/
def insertEntry (k : κ) (v : α) : List (κ × α) → List (κ × α)
  | [] => [(k, v)]
  | (k', v') :: rest =>
    if k' == k then (k', v) :: rest else (k', v') :: insertEntry k v rest

theorem fst_mem_insertEntry {k : κ} {v : α} {entries : List (κ × α)} {e : κ × α}
    (h : e ∈ insertEntry k v entries) : e.1 = k ∨ ∃ e' ∈ entries, e'.1 = e.1 := by
  induction entries with
  | nil => simp only [insertEntry, List.mem_singleton] at h; simp [h]
  | cons p rest ih =>
    simp only [insertEntry] at h
    split at h
    · rcases List.mem_cons.1 h with rfl | h
      · exact .inr ⟨p, by simp, rfl⟩
      · exact .inr ⟨e, by simp [h], rfl⟩
    · rcases List.mem_cons.1 h with rfl | h
      · exact .inr ⟨p, by simp, rfl⟩
      · rcases ih h with h | ⟨e', he', h⟩
        · exact .inl h
        · exact .inr ⟨e', by simp [he'], h⟩

theorem pairwise_insertEntry {k : κ} {v : α} {entries : List (κ × α)}
    (h : entries.Pairwise fun a b => (a.1 == b.1) = false) :
    (insertEntry k v entries).Pairwise fun a b => (a.1 == b.1) = false := by
  induction entries with
  | nil => simp [insertEntry]
  | cons p rest ih =>
    rw [List.pairwise_cons] at h
    simp only [insertEntry]
    split
    · exact List.pairwise_cons.2 ⟨h.1, h.2⟩
    · rename_i hne
      refine List.pairwise_cons.2 ⟨fun e he => ?_, ih h.2⟩
      rcases fst_mem_insertEntry he with he | ⟨e', he', heq⟩
      · simpa [he] using hne
      · simpa [heq] using h.1 e' he'

/-- A dictionary: its entries in order of first insertion. -/
structure Dict (κ α : Type) [BEq κ] where
  entries : List (κ × α)
  distinct : entries.Pairwise fun a b => (a.1 == b.1) = false

namespace Dict

def empty : Dict κ α := ⟨[], .nil⟩

instance : EmptyCollection (Dict κ α) := ⟨empty⟩

instance : Inhabited (Dict κ α) := ⟨empty⟩

def insert (d : Dict κ α) (k : κ) (v : α) : Dict κ α :=
  ⟨insertEntry k v d.entries, pairwise_insertEntry d.distinct⟩

/-- Inserts entries one after the other. -/
def insertAll (d : Dict κ α) (entries : List (κ × α)) : Dict κ α :=
  entries.foldl (fun d e => d.insert e.1 e.2) d

/-- The entries of `other` over those of `d`. -/
def update (d other : Dict κ α) : Dict κ α := d.insertAll other.entries

def ofList (entries : List (κ × α)) : Dict κ α := empty.insertAll entries

def get? (d : Dict κ α) (k : κ) : Option α :=
  (d.entries.find? (·.1 == k)).map (·.2)

def contains (d : Dict κ α) (k : κ) : Bool := d.entries.any (·.1 == k)

def isEmpty (d : Dict κ α) : Bool := d.entries.isEmpty

def size (d : Dict κ α) : Nat := d.entries.length

def keys (d : Dict κ α) : List κ := d.entries.map (·.1)

/-- The dictionary without a key. -/
def erase (d : Dict κ α) (k : κ) : Dict κ α :=
  ⟨d.entries.filter fun e => !(e.1 == k), d.distinct.sublist List.filter_sublist⟩

@[simp] theorem get?_empty (k : κ) : (empty : Dict κ α).get? k = none := rfl

theorem find?_insertEntry [EquivBEq κ] (k a : κ) (v : α) (entries : List (κ × α)) :
    ((insertEntry k v entries).find? (·.1 == a)).map (·.2) =
      if k == a then some v else (entries.find? (·.1 == a)).map (·.2) := by
  induction entries with
  | nil => by_cases h : (k == a) = true <;> simp [insertEntry, h]
  | cons p rest ih =>
    simp only [insertEntry]
    by_cases hpk : (p.1 == k) = true
    · have hcongr : (p.1 == a) = (k == a) := BEq.congr_left hpk
      by_cases hka : (k == a) = true <;> simp [hpk, hcongr, hka]
    · simp only [hpk, Bool.false_eq_true, if_false, List.find?_cons]
      by_cases hpa : (p.1 == a) = true
      · have hka : (k == a) = false := by
          cases hka : k == a
          · rfl
          · exact absurd (BEq.trans hpa (BEq.symm hka)) hpk
        simp [hpa, hka]
      · simp only [hpa]
        exact ih

theorem get?_insert [EquivBEq κ] (d : Dict κ α) (k a : κ) (v : α) :
    (d.insert k v).get? a = if k == a then some v else d.get? a :=
  find?_insertEntry k a v d.entries

theorem get?_insertAll [EquivBEq κ] (d : Dict κ α) (a : κ) (entries : List (κ × α))
    (h : entries.Pairwise fun a b => (a.1 == b.1) = false) :
    (d.insertAll entries).get? a =
      ((entries.find? (·.1 == a)).map (·.2)).or (d.get? a) := by
  induction entries generalizing d with
  | nil => simp [insertAll]
  | cons p rest ih =>
    rw [List.pairwise_cons] at h
    show (insertAll (d.insert p.1 p.2) rest).get? a = _
    rw [ih _ h.2, get?_insert, List.find?_cons]
    by_cases hpa : (p.1 == a) = true
    · have hrest : rest.find? (·.1 == a) = none := by
        refine List.find?_eq_none.2 fun e he hea => ?_
        have := h.1 e he
        rw [BEq.trans hpa (BEq.symm hea)] at this
        cases this
      simp [hpa, hrest]
    · simp [hpa]

/-- **Updating looks up in the newer dictionary first.** -/
theorem get?_update [EquivBEq κ] (d other : Dict κ α) (a : κ) :
    (d.update other).get? a = (other.get? a).or (d.get? a) :=
  get?_insertAll d a other.entries other.distinct

end Dict

end Shorthand.Data
