/-
Expansions as they are written: texts without a dollar sign or a backslash, and tab stops between
them. Each of the two passes that decode an expansion replaces what it is meant for and leaves
everything else as it is (`Pass.render`), so that the second one finds the tab stops that the first
one left, and no others (`remove_render_and_toCursors_render`).
-/
import Shorthand.Proofs.Expansion.Field
import Shorthand.Proofs.Text.Numeral

namespace Shorthand.Expansion.TabStop

open Text (isDecimal)

/-- What an expansion is made of: a text as it is, or a tab stop with its number and its
placeholder. -/
inductive Segment where
  | literal (text : Text)
  | field (index : Nat) (placeholder : Text)
  deriving DecidableEq, Repr

namespace Segment

/-- No character of a segment is taken for part of a tab stop that it is not part of. -/
def Plain : Segment → Prop
  | literal t => ∀ c ∈ t, c ≠ '$' ∧ c ≠ '\\'
  | field _ placeholder => ∀ c ∈ placeholder, c ≠ '$' ∧ c ≠ '\x7d' ∧ c ≠ '\\'

instance : (s : Segment) → Decidable s.Plain
  | literal t => List.decidableBAll (fun c => c ≠ '$' ∧ c ≠ '\\') t
  | field _ p => List.decidableBAll (fun c => c ≠ '$' ∧ c ≠ '\x7d' ∧ c ≠ '\\') p

/-- A segment as it is written. -/
def text : Segment → Text
  | literal t => t
  | field index placeholder => TabStop.field (Text.ofNat index) placeholder

/-- A segment with the placeholder in place of the tab stop. -/
def filled : Segment → Text
  | literal t => t
  | field _ placeholder => placeholder

/-- A segment with the placeholder in place of the tab stop, and a cursor where there is none. -/
def marked : Segment → Text
  | literal t => t
  | field _ [] => ['|']
  | field _ placeholder => placeholder

/-- A segment once the tab stops without placeholder are replaced. -/
def settled (replacement : Text) : Segment → Segment
  | field _ [] => literal replacement
  | s => s

end Segment

/-- The text of an expansion. -/
def render (segments : List Segment) : Text := segments.flatMap Segment.text

/-! ## Written tab stops -/

theorem isIndex_ofNat (index : Nat) : IsIndex (Text.ofNat index) :=
  ⟨Text.ofNat_ne_nil index, fun _ hd => Text.isDecimal_of_isDigit (Text.isDigit_of_mem_ofNat hd)⟩

theorem afterIndex?_ofNat (index : Nat) {c : Char} (h : isDecimal c = false) (rest : Text) :
    afterIndex? ('$' :: '\x7b' :: (Text.ofNat index ++ c :: rest)) = some (c :: rest) :=
  afterIndex?_eq_some_iff.2 ⟨_, isIndex_ofNat index, Text.stops_cons.2 h, rfl⟩

theorem field_append_of_nil (index : Nat) (rest : Text) :
    field (Text.ofNat index) [] ++ rest = '$' :: '\x7b' :: (Text.ofNat index ++ '\x7d' :: rest) := by
  simp [field]

theorem field_append_of_ne_nil {placeholder : Text} (h : placeholder ≠ []) (index : Nat) (rest : Text) :
    field (Text.ofNat index) placeholder ++ rest =
      '$' :: '\x7b' :: (Text.ofNat index ++ ':' :: (placeholder ++ '\x7d' :: rest)) := by
  simp [field, h]

theorem afterPlain?_field (index : Nat) (rest : Text) :
    afterPlain? (field (Text.ofNat index) [] ++ rest) = some rest :=
  afterPlain?_eq_some_iff.2 ⟨_, isIndex_ofNat index, field_append_of_nil index rest⟩

theorem afterPlain?_field_of_ne_nil {placeholder : Text} (h : placeholder ≠ []) (index : Nat) (rest : Text) :
    afterPlain? (field (Text.ofNat index) placeholder ++ rest) = none := by
  simp [field_append_of_ne_nil h, afterPlain?, afterIndex?_ofNat index (by decide : isDecimal ':' = false)]

theorem placeholder?_field {placeholder : Text} (hne : placeholder ≠ []) (hclosing : '\x7d' ∉ placeholder)
    (index : Nat) (rest : Text) :
    placeholder? (field (Text.ofNat index) placeholder ++ rest) = some (placeholder, rest) :=
  placeholder?_eq_some_iff.2 ⟨_, isIndex_ofNat index, hclosing, field_append_of_ne_nil hne index rest⟩

/-! ## What a pass makes of segments -/

/-- A tab stop is a dollar sign and then text without another one. -/
theorem Segment.Plain.exists_text {index : Nat} {placeholder : Text} (h : (field index placeholder).Plain) :
    ∃ t, (field index placeholder).text = '$' :: t ∧ ∀ c ∈ t, c ≠ '$' ∧ c ≠ '\\' := by
  have hindex : ∀ c ∈ Text.ofNat index, c ≠ '$' ∧ c ≠ '\\' := by
    intro c hc
    have hdigit := Text.isDigit_of_mem_ofNat hc
    constructor <;> (rintro rfl; cases hdigit)
  by_cases hnil : placeholder = []
  · refine ⟨'\x7b' :: (Text.ofNat index ++ ['\x7d']), by simp [text, TabStop.field, hnil], ?_⟩
    rw [List.forall_mem_cons, List.forall_mem_append]
    exact ⟨by decide, hindex, List.forall_mem_singleton.2 (by decide)⟩
  · refine ⟨'\x7b' :: (Text.ofNat index ++ ':' :: (placeholder ++ ['\x7d'])),
      by simp [text, TabStop.field, hnil], ?_⟩
    rw [List.forall_mem_cons, List.forall_mem_append, List.forall_mem_cons, List.forall_mem_append]
    exact ⟨by decide, hindex, by decide, fun c hc => ⟨(h c hc).1, (h c hc).2.2⟩,
      List.forall_mem_singleton.2 (by decide)⟩

namespace Pass

variable {field? : Text → Option (Text × Text)} {pass : Bool → Text → Text}

/-- A tab stop that is not recognised comes through as it is. -/
theorem append_field (h : Pass field? pass) {index : Nat} {placeholder rest : Text}
    (hplain : (Segment.field index placeholder).Plain)
    (hnone : field? ((Segment.field index placeholder).text ++ rest) = none) :
    pass false ((Segment.field index placeholder).text ++ rest) =
      (Segment.field index placeholder).text ++ pass false rest := by
  obtain ⟨t, htext, ht⟩ := hplain.exists_text
  rw [htext] at hnone ⊢
  have happend := h.append_of_plain ht rest
  rw [List.cons_append] at hnone ⊢
  rw [h.char fun _ => hnone, beq_false_of_ne (by decide : '$' ≠ '\\'), happend, List.cons_append]

/-- **A pass goes through an expansion segment by segment.** -/
theorem render (h : Pass field? pass) {image : Segment → Text} {segments : List Segment}
    (hs : ∀ s ∈ segments, ∀ rest, pass false (s.text ++ rest) = image s ++ pass false rest) :
    pass false (render segments) = segments.flatMap image := by
  induction segments with
  | nil => exact h.nil false
  | cons s segments ih =>
    obtain ⟨hs, hsegments⟩ := List.forall_mem_cons.1 hs
    rw [TabStop.render, List.flatMap_cons, hs, List.flatMap_cons]
    exact congrArg _ (ih hsegments)

end Pass

theorem replacePlain_render (replacement : Text) {segments : List Segment} (h : ∀ s ∈ segments, s.Plain) :
    replacePlain replacement false (render segments) = render (segments.map (Segment.settled replacement)) := by
  have hpass := pass_replacePlain replacement
  rw [render.eq_def (segments.map _), List.flatMap_map]
  refine hpass.render fun s hs rest => ?_
  have hplain := h s hs
  cases s with
  | literal t => exact hpass.append_of_plain hplain rest
  | field index placeholder =>
    cases placeholder with
    | nil => exact hpass.field (by rw [Segment.text, afterPlain?_field]; rfl)
    | cons c placeholder =>
      exact hpass.append_field hplain
        (by rw [Segment.text, afterPlain?_field_of_ne_nil (List.cons_ne_nil _ _)]; rfl)

theorem unwrapPlaceholders_render {segments : List Segment} (h : ∀ s ∈ segments, s.Plain)
    (hne : ∀ index, .field index [] ∉ segments) :
    unwrapPlaceholders false (render segments) = segments.flatMap Segment.filled := by
  refine pass_unwrapPlaceholders.render fun s hs rest => ?_
  have hplain := h s hs
  cases s with
  | literal t => exact pass_unwrapPlaceholders.append_of_plain hplain rest
  | field index placeholder =>
    have hplaceholder : placeholder ≠ [] := by
      rintro rfl
      exact hne index hs
    have hclosing : '\x7d' ∉ placeholder := fun hc => (hplain _ hc).2.1 rfl
    exact pass_unwrapPlaceholders.field (placeholder?_field hplaceholder hclosing index rest)

/-- The two passes, one after the other. -/
theorem decode_render {replacement : Text} (hreplacement : (Segment.literal replacement).Plain)
    {segments : List Segment} (h : ∀ s ∈ segments, s.Plain) :
    unwrapPlaceholders false (replacePlain replacement false (render segments)) =
      segments.flatMap fun s => (s.settled replacement).filled := by
  rw [replacePlain_render replacement h, unwrapPlaceholders_render, List.flatMap_map]
  · intro s hs
    obtain ⟨s, hmem, rfl⟩ := List.mem_map.1 hs
    rw [Segment.settled.eq_def]
    split
    next => exact hreplacement
    next => exact h s hmem
  · intro index hs
    obtain ⟨s, -, hs⟩ := List.mem_map.1 hs
    rw [Segment.settled.eq_def] at hs
    split at hs
    next => cases hs
    next hfield => exact hfield index hs

theorem isFieldStart_field (index : Nat) (placeholder rest : Text) :
    ∃ t, field (Text.ofNat index) placeholder ++ rest = '$' :: t ∧ isFieldStart t = true := by
  obtain ⟨d, digits, hdigits⟩ := List.exists_cons_of_ne_nil (Text.ofNat_ne_nil index)
  have hd : isDecimal d = true :=
    Text.isDecimal_of_isDigit (Text.isDigit_of_mem_ofNat (hdigits ▸ List.mem_cons_self))
  by_cases hp : placeholder = []
  · rw [hp, field_append_of_nil, hdigits]
    exact ⟨_, rfl, hd⟩
  · rw [field_append_of_ne_nil hp, hdigits]
    exact ⟨_, rfl, hd⟩

theorem escapeDollars_render {segments : List Segment} (h : ∀ s ∈ segments, s.Plain) :
    escapeDollars (render segments) = render segments := by
  refine pass_escapeDollarsAfter.render fun s hs rest => ?_
  have hplain := h s hs
  cases s with
  | literal t => exact pass_escapeDollarsAfter.append_of_plain hplain rest
  | field index placeholder =>
    obtain ⟨t, htext, hstart⟩ := isFieldStart_field index placeholder rest
    refine pass_escapeDollarsAfter.append_field hplain ?_
    rw [Segment.text, htext, loose?, if_pos hstart]

/-- **What is written is read back**, for texts without a dollar sign or a backslash with tab stops
between them, in any number: without its tab stops an expansion is the texts and the placeholders, the
preview shows a cursor for each tab stop without placeholder, and there is nothing to escape. -/
theorem remove_render_and_toCursors_render {segments : List Segment} (h : ∀ s ∈ segments, s.Plain) :
    remove (render segments) = segments.flatMap Segment.filled ∧
    toCursors (render segments) = segments.flatMap Segment.marked ∧
    escapeDollars (render segments) = render segments := by
  refine ⟨?_, ?_, escapeDollars_render h⟩
  · rw [remove, decode_render (by decide) h]
    refine List.flatMap_congr fun s _ => ?_
    cases s with
    | literal t => rfl
    | field index placeholder => cases placeholder <;> rfl
  · rw [toCursors, decode_render (by decide) h]
    refine List.flatMap_congr fun s _ => ?_
    cases s with
    | literal t => rfl
    | field index placeholder => cases placeholder <;> rfl

/-- Braces, colons and digits beside the tab stops, and in a placeholder. -/
theorem remove_render_and_toCursors_render_braces :
    let segments : List Segment := [.literal "\x7b1:".toList, .field 1 [], .literal "\x7d\x7b2\x7d:3".toList,
      .field 22 "a:\x7b1".toList, .field 0 [], .literal "\x7d|".toList]
    let t := "\x7b1:$\x7b1\x7d\x7d\x7b2\x7d:3$\x7b22:a:\x7b1\x7d$\x7b0\x7d\x7d|".toList
    (∀ s ∈ segments, s.Plain) ∧ render segments = t ∧
    remove t = "\x7b1:\x7d\x7b2\x7d:3a:\x7b1\x7d|".toList ∧
    toCursors t = "\x7b1:|\x7d\x7b2\x7d:3a:\x7b1|\x7d|".toList ∧ escapeDollars t = t := by
  intro segments t
  have hplain : ∀ s ∈ segments, s.Plain := by decide
  have hrender : render segments = t := by decide
  obtain ⟨hremove, hcursors, hescape⟩ := remove_render_and_toCursors_render hplain
  rw [hrender] at hremove hcursors hescape
  exact ⟨hplain, hrender, hremove, hcursors, hescape⟩

end Shorthand.Expansion.TabStop
