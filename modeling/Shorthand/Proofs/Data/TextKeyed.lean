/-
Values whose mappings have texts for keys. What is read from JSON is of this kind, and what
is read from YAML need not be.
-/
import Shorthand.Data.Json.Reader
import Shorthand.Proofs.Data.LastEntry

namespace Shorthand.Data

/-- A value in which every key of a mapping is a text. -/
inductive TextKeyed : Value → Prop
  | scalar (s : Scalar) : TextKeyed (.scalar s)
  | list {items : List Value} : (∀ v ∈ items, TextKeyed v) → TextKeyed (.list items)
  | set (members : List Scalar) : TextKeyed (.set members)
  | mapping {entries : List (Scalar × Value)} : (∀ e ∈ entries, ∃ t, e.1 = .text t) →
    (∀ e ∈ entries, TextKeyed e.2) → TextKeyed (.mapping entries)

theorem TextKeyed.entries {v : Value} {m : Mapping} (h : TextKeyed v) (hm : v.mapping? = some m) :
    ∀ e ∈ m.entries, (∃ t, e.1 = .text t) ∧ TextKeyed e.2 := by
  cases h with
  | mapping hkeys hvalues =>
    cases hm
    exact Dict.forall_mem_ofList (p := fun k => ∃ t, k = Scalar.text t) fun e he => ⟨hkeys e he, hvalues e he⟩
  | scalar | list | set => cases hm

theorem TextKeyed.get? {v value : Value} {m : Mapping} {k : Scalar} (h : TextKeyed v)
    (hm : v.mapping? = some m) (hk : m.get? k = some value) : TextKeyed value := by
  obtain ⟨e, he, -, rfl⟩ := Dict.mem_of_get? hk
  exact (h.entries hm e he).2

theorem TextKeyed.ofMapping {entries : List (Scalar × Value)}
    (h : ∀ e ∈ entries, (∃ t, e.1 = .text t) ∧ TextKeyed e.2) :
    TextKeyed (.ofMapping (Dict.ofList entries)) := by
  have hall := Dict.forall_mem_ofList (p := fun k => ∃ t, k = Scalar.text t) h
  exact .mapping (fun e he => (hall e he).1) fun e he => (hall e he).2

namespace Json

theorem map_eq_ok {ε α β : Type} {f : α → β} {x : Except ε α} {b : β} (h : x.map f = .ok b) :
    ∃ a, x = .ok a ∧ f a = b := by
  cases x with
  | error why => cases h
  | ok a => exact ⟨a, rfl, Except.ok.inj h⟩

/-- One induction for the three readers, on the fuel that they share. -/
theorem textKeyed_within (fuel : Nat) :
    (∀ {depth tokens v rest}, value fuel depth tokens = .ok (v, rest) → TextKeyed v) ∧
    (∀ {depth tokens vs rest}, items fuel depth tokens = .ok (vs, rest) → ∀ v ∈ vs, TextKeyed v) ∧
    (∀ {depth tokens ms rest}, members fuel depth tokens = .ok (ms, rest) →
      ∀ e ∈ ms, (∃ t, e.1 = .text t) ∧ TextKeyed e.2) := by
  induction fuel with
  | zero => refine ⟨?_, ?_, ?_⟩ <;> intro depth tokens v rest h <;> simp [value, items, members] at h
  | succ fuel ih =>
    obtain ⟨ihValue, ihItems, ihMembers⟩ := ih
    refine ⟨?_, ?_, ?_⟩
    · intro depth tokens v rest h
      unfold value at h
      split at h
      next heq => cases heq
      next => cases h; exact .scalar _
      next => cases h
      next => cases h
      next => cases h; exact .list (by simp)
      next heq =>
        cases heq
        obtain ⟨⟨vs, after⟩, hitems, heq⟩ := map_eq_ok h
        cases heq
        exact .list (ihItems hitems)
      next => cases h; exact .mapping (by simp) (by simp)
      next heq =>
        cases heq
        obtain ⟨⟨ms, after⟩, hmembers, heq⟩ := map_eq_ok h
        cases heq
        exact .ofMapping (ihMembers hmembers)
      next => cases h
    · intro depth tokens vs rest h
      rw [items] at h
      split at h
      next => cases h
      next v rest' hv =>
        obtain ⟨⟨more, after⟩, hmore, heq⟩ := map_eq_ok h
        cases heq
        exact List.forall_mem_cons.2 ⟨ihValue hv, ihItems hmore⟩
      next v rest' hv =>
        cases h
        exact List.forall_mem_singleton.2 (ihValue hv)
      next => cases h
    · intro depth tokens ms rest h
      unfold members at h
      split at h
      next heq => cases heq
      next heq =>
        cases heq
        split at h
        next => cases h
        next v rest' hv =>
          obtain ⟨⟨more, after⟩, hmore, heq⟩ := map_eq_ok h
          cases heq
          exact List.forall_mem_cons.2 ⟨⟨⟨_, rfl⟩, ihValue hv⟩, ihMembers hmore⟩
        next v rest' hv =>
          cases h
          exact List.forall_mem_singleton.2 ⟨⟨_, rfl⟩, ihValue hv⟩
        next => cases h
      next => cases h

/-- **What is read from JSON has texts for keys.** -/
theorem textKeyed_of_read {t : Text} {v : Value} (h : read t = .ok v) : TextKeyed v := by
  rw [read] at h
  split at h
  next => cases h
  next hv =>
    cases h
    exact (textKeyed_within _).1 hv
  next => cases h

end Json

end Shorthand.Data
