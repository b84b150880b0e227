/-
What is left of an expansion once its tab stops are removed. Two passes go over it, one after the other,
and what becomes of each character is told by a trace (`Removal`). No tab stop of the text comes through
whole (`Removal.bracket`), so that one that is read in what is left is made of parts with something
between them that was taken away: `fieldFree_remove_iff`.
-/
import Shorthand.Proofs.Expansion.Trace

namespace Shorthand.Expansion.TabStop

open Trace
open Text (isDecimal)

/-! ## What the two passes recognise -/

/-- A tab stop without placeholder, which nothing replaces. -/
def plain? (t : Text) : Option (Text × Text) := (afterPlain? t).map ([], ·)

theorem plain?_eq_some_iff {t replacement rest : Text} :
    plain? t = some (replacement, rest) ↔
      replacement = [] ∧ ∃ index, IsIndex index ∧ t = '$' :: '\x7b' :: (index ++ '\x7d' :: rest) := by
  rw [plain?, Option.map_eq_some_iff]
  constructor
  · rintro ⟨rest', hrest, heq⟩
    obtain ⟨rfl, rfl⟩ := Prod.mk.inj heq
    exact ⟨rfl, afterPlain?_eq_some_iff.1 hrest⟩
  · rintro ⟨rfl, hindex⟩
    exact ⟨rest, afterPlain?_eq_some_iff.2 hindex, rfl⟩

theorem IsIndex.not_mem {index : Text} (h : IsIndex index) {c : Char} (hc : isDecimal c = false) : c ∉ index :=
  fun hmem => Bool.false_ne_true (hc.symm.trans (h.2 c hmem))

theorem bracketed_plain? : Bracketed plain? where
  split {t _ rest} h := by
    obtain ⟨rfl, index, hindex, rfl⟩ := plain?_eq_some_iff.1 h
    refine ⟨'$' :: '\x7b' :: index, by simp, List.cons_ne_nil _ _, ?_, ?_⟩
    · simpa using hindex.not_mem (by decide)
    · simpa using hindex.not_mem (by decide)

theorem bracketed_placeholder? : Bracketed placeholder? where
  split {t placeholder rest} h := by
    obtain ⟨index, hindex, hplaceholder, rfl⟩ := placeholder?_eq_some_iff.1 h
    refine ⟨'$' :: '\x7b' :: (index ++ [':']), by simp, List.cons_ne_nil _ _, ?_, ?_⟩
    · simpa using hindex.not_mem (by decide)
    · simpa using ⟨hindex.not_mem (by decide), hplaceholder⟩

theorem IsField.exists_eq {field : Text} (h : IsField field) :
    ∃ z, field = '$' :: (z ++ ['\x7d']) ∧ '\x7d' ∉ '$' :: z := by
  cases h with
  | @plain index hindex =>
    exact ⟨'\x7b' :: index, rfl, by simpa using hindex.not_mem (by decide)⟩
  | @held index placeholder hindex hplaceholder =>
    exact ⟨'\x7b' :: (index ++ ':' :: placeholder), by simp,
      by simpa using ⟨hindex.not_mem (by decide), hplaceholder⟩⟩

theorem IsField.bracket_not_mem {z : Text} (h : IsField (z ++ ['\x7d'])) : '\x7d' ∉ z := by
  obtain ⟨z', heq, hz⟩ := h.exists_eq
  rw [← List.cons_append, List.append_left_inj] at heq
  rwa [heq]

/-- A tab stop is recognised by one of the passes, whatever stands behind it. -/
theorem IsField.recognised {field : Text} (h : IsField field) :
    (∀ rest, plain? (field ++ rest) ≠ none) ∨ ∀ rest, placeholder? (field ++ rest) ≠ none := by
  cases h with
  | @plain index hindex =>
    refine .inl fun rest => Option.ne_none_iff_exists'.2 ⟨([], rest), ?_⟩
    exact plain?_eq_some_iff.2 ⟨rfl, index, hindex, by simp⟩
  | @held index placeholder hindex hplaceholder =>
    refine .inr fun rest => Option.ne_none_iff_exists'.2 ⟨(placeholder, rest), ?_⟩
    exact placeholder?_eq_some_iff.2 ⟨index, hindex, hplaceholder, by simp⟩

/-- A text begins with a tab stop exactly when one of the passes recognises something at its start. -/
theorem exists_isField_iff (t : Text) :
    (∃ field rest, t = field ++ rest ∧ IsField field) ↔ plain? t ≠ none ∨ placeholder? t ≠ none := by
  constructor
  · rintro ⟨field, rest, rfl, hfield⟩
    exact hfield.recognised.imp (· rest) (· rest)
  · rintro (h | h)
    · obtain ⟨⟨_, rest⟩, hfound⟩ := Option.ne_none_iff_exists'.1 h
      obtain ⟨-, index, hindex, rfl⟩ := plain?_eq_some_iff.1 hfound
      exact ⟨_, rest, by simp, .plain hindex⟩
    · obtain ⟨⟨_, rest⟩, hfound⟩ := Option.ne_none_iff_exists'.1 h
      obtain ⟨index, hindex, hplaceholder, rfl⟩ := placeholder?_eq_some_iff.1 hfound
      exact ⟨_, rest, by simp, .held hindex hplaceholder⟩

/-! ## Texts that a removal leaves as they are -/

/-- Texts without a tab stop are those in which neither pass finds anything. -/
theorem fieldFree_iff_traced (t : Text) :
    FieldFree t ↔ Traced plain? false (kept t) ∧ Traced placeholder? false (kept t) := by
  rw [Traced.kept_iff bracketed_plain?, Traced.kept_iff bracketed_placeholder?]
  constructor
  · intro h
    have hnone {before after : Text} (heq : t = before ++ after) (hbehind : behind false before = false) :
        ¬ (plain? after ≠ none ∨ placeholder? after ≠ none) := by
      rw [← exists_isField_iff]
      rintro ⟨field, rest, rfl, hfield⟩
      exact (behind_eq_false_iff before).1 hbehind (h before field rest heq hfield)
    exact ⟨fun before after heq hbehind => not_not.1 fun hfound => hnone heq hbehind (.inl hfound),
      fun before after heq hbehind => not_not.1 fun hfound => hnone heq hbehind (.inr hfound)⟩
  · rintro ⟨hplain, hheld⟩ before field after heq hfield
    by_contra hlast
    have hbehind := (behind_eq_false_iff before).2 hlast
    cases hfield.recognised with
    | inl h => exact h after (hplain before _ heq hbehind)
    | inr h => exact h after (hheld before _ heq hbehind)

/-! ## The removal -/

/-- What becomes of the characters of a text when its tab stops are removed. -/
inductive Removal (t : Text) : Trace → Prop
  | mk {first second : Trace} : Traced plain? false first → whole first = t →
    Traced placeholder? false second → whole second = left first → Removal t (first.andThen second)

theorem exists_removal (t : Text) : ∃ m, Removal t m := by
  obtain ⟨first, hfirst, hwhole⟩ := exists_traced bracketed_plain? false t
  obtain ⟨second, hsecond, hleft⟩ := exists_traced bracketed_placeholder? false (left first)
  exact ⟨_, .mk hfirst hwhole hsecond hleft⟩

namespace Removal

variable {t : Text} {m : Trace}

theorem unique {n : Trace} (h : Removal t m) (h' : Removal t n) : m = n := by
  obtain ⟨hfirst, hwhole, hsecond, hleft⟩ := h
  obtain ⟨hfirst', hwhole', hsecond', hleft'⟩ := h'
  obtain rfl := hfirst.unique hfirst' (hwhole.trans hwhole'.symm)
  rw [hsecond.unique hsecond' (hleft.trans hleft'.symm)]

theorem whole_eq (h : Removal t m) : whole m = t := by
  obtain ⟨-, hwhole, -, -⟩ := h
  rw [whole_andThen, hwhole]

theorem left_eq (h : Removal t m) : left m = remove t := by
  obtain ⟨hfirst, rfl, hsecond, hleft⟩ := h
  rw [left_andThen hleft, hsecond.left_eq pass_unwrapPlaceholders, hleft, hfirst.left_eq (pass_replacePlain []),
    remove]

theorem ne_backslash (h : Removal t m) {c : Char} (hc : (c, false) ∈ m) : c ≠ '\\' := by
  obtain ⟨hfirst, -, hsecond, hleft⟩ := h
  cases mem_andThen hleft hc with
  | inl hc => exact hfirst.ne_backslash bracketed_plain? hc
  | inr hc => exact hsecond.ne_backslash bracketed_placeholder? hc

/-- **The closing bracket of a tab stop is taken away.** -/
theorem bracket (h : Removal t m) {x z y : Text} (heq : t = x ++ (z ++ '\x7d' :: y)) (hx : x.getLast? ≠ some '\\')
    (hfield : IsField (z ++ ['\x7d'])) : ∃ n n', m = n ++ ('\x7d', false) :: n' ∧ whole n = x ++ z := by
  have hz := hfield.bracket_not_mem
  have happend (rest : Text) : z ++ ['\x7d'] ++ rest = z ++ '\x7d' :: rest := List.append_assoc z ['\x7d'] rest
  obtain @⟨first, second, hfirst, rfl, hsecond, hleft⟩ := h
  obtain ⟨n, n', rfl, hn⟩ | ⟨n, n', rfl, hn, htraced, hbehind⟩ := hfirst.bracket bracketed_plain? heq hz
  · obtain ⟨k, k', hk, hwhole⟩ := exists_andThen_eq hleft
    exact ⟨k, k', hk, hwhole.trans hn⟩
  · have hplain : ¬ ∀ rest, plain? (z ++ ['\x7d'] ++ rest) ≠ none := fun h => by
      rw [(behind_eq_false_iff x).2 hx] at htraced
      exact h _ (happend _ ▸ htraced.not_recognised bracketed_plain?)
    have hheld := hfield.recognised.resolve_left hplain
    -- The first pass leaves the tab stop as it is, with a backslash before it only if there was one.
    have hbefore : behind false (left n) = false :=
      (hbehind fun h => (plain?_eq_some_iff.1 h).1).trans ((behind_eq_false_iff x).2 hx)
    have hsplit : whole second = left n ++ (z ++ '\x7d' :: left n') := by simpa using hleft
    obtain ⟨k, k', rfl, hk⟩ | ⟨k, k', rfl, -, htraced, -⟩ := hsecond.bracket bracketed_placeholder? hsplit hz
    · refine ⟨(n ++ kept z).andThen k, andThen n' k', ?_, by rw [whole_andThen, whole_append, whole_kept, hn]⟩
      have hfirst_part : whole k = left (n ++ kept z) := by simpa using hk
      rw [← List.append_assoc n, andThen_append hfirst_part, andThen]
    · rw [hbefore] at htraced
      exact absurd (happend _ ▸ htraced.not_recognised bracketed_placeholder?) (hheld _)

end Removal

/-- Two parts of a text read as a tab stop once what stands between them is taken away. -/
def Joined (m : Trace) : Prop :=
  ∃ before start c rest after, m = before ++ (start ++ (c, false) :: (rest ++ after)) ∧
    left start ≠ [] ∧ left rest ≠ [] ∧ IsField (left start ++ left rest) ∧ (left before).getLast? ≠ some '\\'

theorem Removal.fieldFree_iff {t : Text} {m : Trace} (h : Removal t m) : FieldFree (left m) ↔ ¬ Joined m := by
  constructor
  · rintro hfree ⟨before, start, c, rest, after, rfl, -, -, hfield, hlast⟩
    exact hlast (hfree (left before) _ (left after) (by simp) hfield)
  · intro hjoined before field after heq hfield
    by_contra hlast
    obtain ⟨z, rfl, -⟩ := hfield.exists_eq
    have hstart : left m = before ++ '$' :: (z ++ '\x7d' :: after) := by simpa using heq
    obtain ⟨n, n', rfl, rfl, htail⟩ := exists_of_left_eq hstart
    obtain ⟨k, k', rfl, rfl, rfl⟩ := exists_of_left_eq htail
    obtain hk | ⟨c, k₁, k₂, rfl⟩ := eq_kept_or_exists_taken k
    · -- It would come through whole.
      have ht : t = whole n ++ (('$' :: whole k) ++ '\x7d' :: whole k') := by simpa using h.whole_eq.symm
      have hlast' : (whole n).getLast? ≠ some '\\' := fun h' =>
        hlast (getLast?_left (fun c hc => h.ne_backslash (List.mem_append_left _ hc)) h')
      have hfield' : IsField (('$' :: whole k) ++ ['\x7d']) := by rwa [hk, left_kept] at hfield
      obtain ⟨n₁, n₁', hcut, hwhole⟩ := h.bracket ht hlast' hfield'
      have hmark : (n ++ ('$', true) :: k) ++ ('\x7d', true) :: k' = n₁ ++ ('\x7d', false) :: n₁' := by
        rw [← hcut, List.append_assoc, List.cons_append]
      cases mark_inj hmark (by rw [hwhole, whole_append, whole_cons])
    · refine hjoined ⟨n, ('$', true) :: k₁, c, k₂ ++ [('\x7d', true)], k', by simp, List.cons_ne_nil _ _, by simp,
        ?_, hlast⟩
      simpa using hfield

/-- Removing the tab stops changes a text exactly when it has one. -/
theorem fieldFree_iff_remove_eq (t : Text) : FieldFree t ↔ remove t = t := by
  rw [fieldFree_iff_traced]
  constructor
  · rintro ⟨hplain, hheld⟩
    have h := Removal.left_eq (.mk hplain (whole_kept t) hheld (by simp))
    rw [← h, left_andThen (by simp), left_kept]
  · intro hremove
    obtain ⟨_, hm⟩ := exists_removal t
    have hsame := hm.left_eq.trans hremove
    obtain @⟨first, second, hfirst, rfl, hsecond, hleft⟩ := hm
    rw [left_andThen hleft] at hsame
    -- Neither pass makes a text longer, so that neither takes anything away.
    have hlength : (whole second).length = (left first).length := congrArg List.length hleft
    have hlength' : (left second).length = (whole first).length := congrArg List.length hsame
    have hle := length_left_le first
    have hle' := length_left_le second
    have hkept : first = kept (whole first) := eq_kept_of_length (by omega)
    have hkept' : second = kept (whole second) := eq_kept_of_length (by omega)
    rw [hleft, hkept, left_kept] at hkept'
    exact ⟨hkept ▸ hfirst, hkept' ▸ hsecond⟩

/-- Each closing bracket of a text closes a tab stop. -/
def Closed (t : Text) : Prop :=
  ∀ before after, t = before ++ '\x7d' :: after →
    ∃ x z, before = x ++ z ∧ IsField (z ++ ['\x7d']) ∧ x.getLast? ≠ some '\\'

theorem closed_of_not_mem {t : Text} (h : '\x7d' ∉ t) : Closed t := by
  rintro before after rfl
  exact absurd (List.mem_append_right _ List.mem_cons_self) h

theorem Closed.append {x field t : Text} (hx : '\x7d' ∉ x) (hlast : x.getLast? ≠ some '\\') (hfield : IsField field)
    (h : Closed t) : Closed (x ++ (field ++ t)) := by
  intro before after heq
  obtain ⟨z, rfl, hz⟩ := hfield.exists_eq
  have hnot : '\x7d' ∉ x ++ '$' :: z := List.not_mem_append hx hz
  by_cases hbefore : '\x7d' ∈ before
  · obtain ⟨b, b', rfl, hb⟩ := List.eq_append_cons_of_mem hbefore
    obtain ⟨rfl, rfl⟩ := first_bracket_inj hnot hb (by simpa using heq)
    obtain ⟨x', z', rfl, hfield', hlast'⟩ := h b' after rfl
    refine ⟨x ++ '$' :: z ++ '\x7d' :: x', z', by simp, hfield', ?_⟩
    rw [List.getLast?_append, List.getLast?_cons, Option.some_or]
    cases hx' : x'.getLast? with
    | none => decide
    | some c => exact fun hc => hlast' (hx'.trans hc)
  · obtain ⟨rfl, rfl⟩ := first_bracket_inj hnot hbefore (by simpa using heq)
    exact ⟨x, '$' :: z, rfl, hfield, hlast⟩

/-- Nothing is left of a tab stop in a text each of whose closing brackets closes one. -/
theorem Removal.bracket_not_mem {t : Text} {m : Trace} (h : Removal t m) (hclosed : Closed t) : '\x7d' ∉ left m := by
  intro hmem
  obtain ⟨s, s', hs⟩ := List.append_of_mem hmem
  obtain ⟨n, n', rfl, -, -⟩ := exists_of_left_eq hs
  have ht : whole n ++ '\x7d' :: whole n' = t := by simpa using h.whole_eq
  obtain ⟨x, z, hcut, hfield, hx⟩ := hclosed _ _ ht.symm
  obtain ⟨k, k', hk, hwhole⟩ := h.bracket (by rw [← ht, hcut, List.append_assoc]) hx hfield
  cases mark_inj hk (hcut.trans hwhole.symm)

/-- **What is left of a text is without tab stops exactly if a second removal changes nothing in it, which
is so unless the removal brings two parts of the text together that read as one.** It does not where each
closing bracket closes a tab stop. -/
theorem fieldFree_remove_iff (t : Text) :
    (FieldFree (remove t) ↔ remove (remove t) = remove t) ∧
      (∃ m, (∀ n, Removal t n ↔ n = m) ∧ whole m = t ∧ left m = remove t ∧
        (FieldFree (remove t) ↔ ¬ Joined m)) ∧
      (Closed t → FieldFree (remove t)) := by
  obtain ⟨m, hm⟩ := exists_removal t
  have hunique (n : Trace) : Removal t n ↔ n = m := ⟨fun hn => hn.unique hm, fun hn => hn ▸ hm⟩
  refine ⟨fieldFree_iff_remove_eq _, ⟨m, hunique, hm.whole_eq, hm.left_eq, ?_⟩, fun hclosed => ?_⟩
  · rw [← hm.left_eq]
    exact hm.fieldFree_iff
  · intro before field after heq hfield
    obtain ⟨z, rfl, -⟩ := hfield.exists_eq
    refine absurd ?_ (hm.bracket_not_mem hclosed)
    rw [hm.left_eq, heq]
    simp

/-- Dollar signs that are no tab stops, before one and in a placeholder. -/
theorem fieldFree_remove_iff_dollars :
    let t := "$$\x7b1\x7d$\x7b2:$b\x7d\x7b".toList
    Closed t ∧ FieldFree (remove t) ∧ remove t = "$$b\x7b".toList := by
  intro t
  have hfirst : IsField ('$' :: '\x7b' :: (['1'] ++ ['\x7d'])) := .plain (isIndex_singleton (by decide))
  have hsecond : IsField ('$' :: '\x7b' :: (['2'] ++ ':' :: (['$', 'b'] ++ ['\x7d']))) :=
    .held (isIndex_singleton (by decide)) (by decide)
  have hrest : Closed ([] ++ (_ ++ ['\x7b'])) :=
    .append (by decide) (by decide) hsecond (closed_of_not_mem (by decide))
  have hclosed : Closed (['$'] ++ (_ ++ _)) := .append (by decide) (by decide) hfirst hrest
  exact ⟨hclosed, (fieldFree_remove_iff t).2.2 hclosed, by decide +kernel⟩

/-- A tab stop in a placeholder keeps its bracket, as the placeholder ends there, and a dollar sign before
a tab stop goes on with what stands behind that. -/
theorem not_fieldFree_remove :
    let nested := "$\x7b1:a$\x7b2:b\x7d\x7d".toList
    let adjacent := "$$\x7b1\x7d\x7b2\x7d".toList
    (¬ FieldFree (remove nested) ∧ remove nested = "a$\x7b2:b\x7d".toList ∧
      remove (remove nested) = "ab".toList) ∧
    ¬ FieldFree (remove adjacent) ∧ remove adjacent = "$\x7b2\x7d".toList ∧ remove (remove adjacent) = [] := by
  simp only [fieldFree_iff_remove_eq]
  decide +kernel

end Shorthand.Expansion.TabStop
