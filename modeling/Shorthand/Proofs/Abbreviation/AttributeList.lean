/-
The content of an `[attributes]` block as a grammar: attributes, each a name with or
without a value, with blanks between them. `isAttributeList_iff` says that the check of
such a content, which tries every end a value may have, decides the grammar.
-/
import Shorthand.Abbreviation.Attributes
import Shorthand.Proofs.Text.Run

namespace Shorthand.Abbreviation

open Text (isBlank Run Stops)

/-- The value of an attribute: a string, a text in braces, or a text without blanks,
quotes and square brackets. -/
inductive AttributeValue : Text → Prop
  | quoted {quote : Char} {inside : Text} :
    quote = '"' ∨ quote = '\'' → quote ∉ inside → AttributeValue (quote :: (inside ++ [quote]))
  | braced {inside : Text} : '}' ∉ inside → AttributeValue ('{' :: (inside ++ ['}']))
  | bare {value : Text} : (∀ c ∈ value, isBareValueChar c = true) → AttributeValue value

/-- An attribute: a name, and perhaps a value behind `=`. -/
inductive Attribute : Text → Prop
  | name {name : Text} : name ≠ [] → (∀ c ∈ name, isAttributeNameChar c = true) → Attribute name
  | valued {name value : Text} : name ≠ [] → (∀ c ∈ name, isAttributeNameChar c = true) →
    AttributeValue value → Attribute (name ++ '=' :: value)

/-- Attributes with blanks between each two. Blanks may stand behind the last one. -/
inductive Attributes : Text → Prop
  | nil : Attributes []
  | last {first : Text} : Attribute first → Attributes first
  | more {first gap rest : Text} : Attribute first → gap ≠ [] → (∀ c ∈ gap, isBlank c = true) →
    Attributes rest → Attributes (first ++ (gap ++ rest))

/-- A list of attributes, with or without blanks before it. -/
def AttributeList (t : Text) : Prop :=
  ∃ lead rest, t = lead ++ rest ∧ (∀ c ∈ lead, isBlank c = true) ∧ Attributes rest

theorem isAttributeNameChar_of_blank {c : Char} (h : isBlank c = true) : isAttributeNameChar c = false := by
  simp [isAttributeNameChar, h]

theorem isBareValueChar_of_blank {c : Char} (h : isBlank c = true) : isBareValueChar c = false := by
  simp [isBareValueChar, h]

/-! ## What is left behind an attribute -/

theorem afterMark?_eq_some_iff {mark : Char} {t rest : Text} :
    afterMark? mark t = some rest ↔ ∃ inside, t = inside ++ mark :: rest ∧ mark ∉ inside := by
  induction t with
  | nil => simp [afterMark?]
  | cons c t ih =>
    rw [afterMark?]
    by_cases hc : c = mark
    · subst hc
      simp only [if_true, Option.some.injEq]
      constructor
      · rintro rfl
        exact ⟨[], rfl, by simp⟩
      · rintro ⟨inside, heq, hnot⟩
        cases inside with
        | nil => exact (List.cons.inj heq).2
        | cons d inside =>
          obtain rfl := (List.cons.inj heq).1
          exact absurd List.mem_cons_self hnot
    · rw [if_neg hc, ih]
      constructor
      · rintro ⟨inside, rfl, hnot⟩
        exact ⟨c :: inside, rfl, by simp [hnot, Ne.symm hc]⟩
      · rintro ⟨inside, heq, hnot⟩
        cases inside with
        | nil => exact absurd (List.cons.inj heq).1 hc
        | cons d inside =>
          obtain ⟨rfl, rfl⟩ := List.cons.inj heq
          exact ⟨inside, rfl, fun h => hnot (List.mem_cons_of_mem _ h)⟩

theorem attributeValue_of_mem {t left : Text} (h : left ∈ afterValue t) :
    ∃ value, t = value ++ left ∧ AttributeValue value := by
  unfold afterValue at h
  rw [List.mem_append, List.mem_singleton] at h
  rcases h with h | rfl
  · split at h
    · rw [Option.mem_toList, afterMark?_eq_some_iff] at h
      obtain ⟨inside, rfl, hnot⟩ := h
      exact ⟨_, by simp, .quoted (.inl rfl) hnot⟩
    · rw [Option.mem_toList, afterMark?_eq_some_iff] at h
      obtain ⟨inside, rfl, hnot⟩ := h
      exact ⟨_, by simp, .quoted (.inr rfl) hnot⟩
    · rw [Option.mem_toList, afterMark?_eq_some_iff] at h
      obtain ⟨inside, rfl, hnot⟩ := h
      exact ⟨_, by simp, .braced hnot⟩
    · cases h
  · exact ⟨t.takeWhile isBareValueChar, List.takeWhile_append_dropWhile.symm,
      .bare (Text.run_takeWhile _ t).all⟩

theorem mem_afterValue {value left : Text} (h : AttributeValue value) (hleft : Stops isBareValueChar left) :
    left ∈ afterValue (value ++ left) := by
  unfold afterValue
  rw [List.mem_append, List.mem_singleton]
  have hmark {mark : Char} {inside : Text} (hnot : mark ∉ inside) :
      left ∈ (afterMark? mark (inside ++ [mark] ++ left)).toList := by
    rw [Option.mem_toList, afterMark?_eq_some_iff]
    exact ⟨inside, by simp, hnot⟩
  cases h with
  | quoted hquote hnot => rcases hquote with rfl | rfl <;> exact .inl (hmark hnot)
  | braced hnot => exact .inl (hmark hnot)
  | bare hall => exact .inr (Run.dropWhile_eq ⟨hall, hleft⟩).symm

/-- Behind an attribute stands a blank or nothing. -/
def EndsAttribute (left : Text) : Prop := ∀ c ∈ left.head?, isBlank c = true

theorem attribute_of_mem {c : Char} {rest left : Text} (hc : isAttributeNameChar c = true)
    (h : left ∈ afterAttribute (c :: rest)) : ∃ first, c :: rest = first ++ left ∧ Attribute first := by
  have hrun := Text.run_takeWhile isAttributeNameChar (c :: rest)
  have hsplit := List.takeWhile_append_dropWhile (p := isAttributeNameChar) (l := c :: rest)
  have hne : (c :: rest).takeWhile isAttributeNameChar ≠ [] := by simp [hc]
  unfold afterAttribute at h
  split at h
  next behind hbehind =>
    obtain ⟨value, rfl, hvalue⟩ := attributeValue_of_mem h
    refine ⟨_, ?_, .valued hne hrun.all hvalue⟩
    rw [List.append_assoc, List.cons_append, ← hbehind, hsplit]
  next =>
    obtain rfl := List.mem_singleton.1 h
    exact ⟨_, hsplit.symm, .name hne hrun.all⟩

theorem mem_afterAttribute {first left : Text} (h : Attribute first) (hleft : EndsAttribute left) :
    left ∈ afterAttribute (first ++ left) := by
  have hname : Stops isAttributeNameChar left := fun c hc => isAttributeNameChar_of_blank (hleft c hc)
  have hvalue : Stops isBareValueChar left := fun c hc => isBareValueChar_of_blank (hleft c hc)
  unfold afterAttribute
  cases h with
  | name hne hall =>
    rw [Run.dropWhile_eq ⟨hall, hname⟩]
    split
    next behind =>
      have : isBlank '=' = true := hleft '=' rfl
      exact absurd this (by decide)
    next => exact List.mem_singleton.2 rfl
  | valued hne hall hv =>
    rw [List.append_assoc, List.cons_append,
      Run.dropWhile_eq ⟨hall, Text.stops_cons.2 (by decide)⟩]
    exact mem_afterValue hv hvalue

/-! ## The whole list -/

theorem attributes_of_within {fuel : Nat} {t : Text} (h : attributesWithin fuel t = true) : Attributes t := by
  induction fuel generalizing t with
  | zero =>
    cases t with
    | nil => exact .nil
    | cons c rest => cases h
  | succ fuel ih =>
    cases t with
    | nil => exact .nil
    | cons c rest =>
      rw [attributesWithin, Bool.and_eq_true, List.any_eq_true] at h
      obtain ⟨hc, left, hmem, hleft⟩ := h
      obtain ⟨first, heq, hfirst⟩ := attribute_of_mem hc hmem
      rw [heq]
      cases left with
      | nil => simpa using Attributes.last hfirst
      | cons b more =>
        rw [Bool.and_eq_true] at hleft
        have hgap : ∀ d ∈ b :: more.takeWhile isBlank, isBlank d = true := by
          intro d hd
          rcases List.mem_cons.1 hd with rfl | hd
          · exact hleft.1
          · exact (Text.run_takeWhile isBlank more).all d hd
        have := Attributes.more hfirst (List.cons_ne_nil _ _) hgap (ih hleft.2)
        rwa [List.cons_append, List.takeWhile_append_dropWhile] at this

theorem Attribute.head {first : Text} (h : Attribute first) :
    ∃ c rest, first = c :: rest ∧ isAttributeNameChar c = true := by
  cases h with
  | name hne hall =>
    obtain ⟨c, rest, rfl⟩ := List.exists_cons_of_ne_nil hne
    exact ⟨c, rest, rfl, hall c List.mem_cons_self⟩
  | @valued name value hne hall hv =>
    obtain ⟨c, rest, rfl⟩ := List.exists_cons_of_ne_nil hne
    exact ⟨c, rest ++ '=' :: value, rfl, hall c List.mem_cons_self⟩

/-- No blank stands before attributes. -/
theorem Attributes.stops {t : Text} (h : Attributes t) : Stops isBlank t := by
  have hhead {first left : Text} (hfirst : Attribute first) : Stops isBlank (first ++ left) := by
    obtain ⟨c, rest, rfl, hc⟩ := hfirst.head
    refine Text.stops_cons.2 (Bool.eq_false_iff.2 fun hb => ?_)
    rw [isAttributeNameChar_of_blank hb] at hc
    cases hc
  cases h with
  | nil => exact Text.stops_nil _
  | last hfirst => simpa using @hhead _ [] hfirst
  | more hfirst _ _ _ => exact hhead hfirst

/-- An attribute is read, and then what stands behind the blanks. -/
theorem within_append {first left : Text} {fuel : Nat} (hfirst : Attribute first) (hleft : EndsAttribute left)
    (hgo : ∀ b more, left = b :: more → attributesWithin fuel (more.dropWhile isBlank) = true) :
    attributesWithin (fuel + 1) (first ++ left) = true := by
  have hmem := mem_afterAttribute hfirst hleft
  obtain ⟨c, rest, rfl, hc⟩ := hfirst.head
  rw [List.cons_append, attributesWithin, Bool.and_eq_true, List.any_eq_true]
  refine ⟨hc, left, hmem, ?_⟩
  cases left with
  | nil => rfl
  | cons b more =>
    rw [Bool.and_eq_true]
    exact ⟨hleft b rfl, hgo b more rfl⟩

theorem within_of_attributes {t : Text} (h : Attributes t) {fuel : Nat} (hfuel : t.length ≤ fuel) :
    attributesWithin fuel t = true := by
  induction h generalizing fuel with
  | nil => cases fuel <;> rfl
  | last hfirst =>
    obtain ⟨c, rest, rfl, -⟩ := hfirst.head
    cases fuel with
    | zero => simp at hfuel
    | succ fuel => simpa using @within_append _ [] _ hfirst (by simp [EndsAttribute]) (by simp)
  | @more first gap rest hfirst hne hgap hrest ih =>
    obtain ⟨b, gap, rfl⟩ := List.exists_cons_of_ne_nil hne
    have hpos : 0 < first.length := by
      obtain ⟨c, rest, rfl, -⟩ := hfirst.head
      simp
    simp only [List.length_append, List.length_cons] at hfuel
    cases fuel with
    | zero => omega
    | succ fuel =>
      refine within_append hfirst (by simpa [EndsAttribute] using hgap b List.mem_cons_self) ?_
      intro d more heq
      rw [List.cons_append] at heq
      obtain ⟨rfl, rfl⟩ := List.cons.inj heq
      have hrun : Run isBlank gap rest := ⟨fun e he => hgap e (List.mem_cons_of_mem _ he), hrest.stops⟩
      rw [hrun.dropWhile_eq]
      exact ih (by omega)

/-- The check of a content decides whether it is a list of attributes. -/
theorem isAttributeList_iff {t : Text} : isAttributeList t = true ↔ AttributeList t := by
  constructor
  · intro h
    exact ⟨t.takeWhile isBlank, t.dropWhile isBlank, List.takeWhile_append_dropWhile.symm,
      (Text.run_takeWhile isBlank t).all, attributes_of_within h⟩
  · rintro ⟨lead, rest, rfl, hlead, hrest⟩
    rw [isAttributeList, Run.dropWhile_eq ⟨hlead, hrest.stops⟩]
    exact within_of_attributes hrest (by simp)

end Shorthand.Abbreviation
