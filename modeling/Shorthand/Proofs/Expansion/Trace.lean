/-
What becomes of each character of a text in a pass that takes tab stops away. A trace marks the
characters that are kept; there is exactly one for a text (`exists_traced`, `Traced.unique`), and what
it keeps is what the pass leaves (`Traced.left_eq`). A tab stop of the text either loses its closing
bracket or is kept whole, and then it is none that the pass recognises (`Traced.bracket`). A pass over
what another one has left refines its trace (`Trace.andThen`).
-/
import Mathlib.Data.List.Induction
import Shorthand.Proofs.Expansion.Field

namespace Shorthand.Expansion.TabStop

/-- The characters of a text, each with whether it is kept. -/
abbrev Trace := List (Char × Bool)

namespace Trace

/-- All characters. -/
def whole (m : Trace) : Text := m.map Prod.fst

/-- The characters that are kept. -/
def left (m : Trace) : Text := (m.filter Prod.snd).map Prod.fst

def kept (t : Text) : Trace := t.map (·, true)

def taken (t : Text) : Trace := t.map (·, false)

@[simp] theorem whole_nil : whole [] = [] := rfl

@[simp] theorem whole_cons (p : Char × Bool) (m : Trace) : whole (p :: m) = p.1 :: whole m := rfl

@[simp] theorem whole_append (m n : Trace) : whole (m ++ n) = whole m ++ whole n := List.map_append

@[simp] theorem whole_kept (t : Text) : whole (kept t) = t := by simp [whole, kept, Function.comp_def]

@[simp] theorem whole_taken (t : Text) : whole (taken t) = t := by simp [whole, taken, Function.comp_def]

@[simp] theorem left_nil : left [] = [] := rfl

@[simp] theorem left_cons_kept (c : Char) (m : Trace) : left ((c, true) :: m) = c :: left m := rfl

@[simp] theorem left_cons_taken (c : Char) (m : Trace) : left ((c, false) :: m) = left m := rfl

@[simp] theorem left_append (m n : Trace) : left (m ++ n) = left m ++ left n := by simp [left]

@[simp] theorem left_kept (t : Text) : left (kept t) = t := by simp [left, kept, List.filter_map, Function.comp_def]

@[simp] theorem left_taken (t : Text) : left (taken t) = [] := by simp [left, taken, List.filter_map, Function.comp_def]

theorem length_whole (m : Trace) : (whole m).length = m.length := List.length_map _

theorem length_left_le (m : Trace) : (left m).length ≤ (whole m).length := by
  rw [left, List.length_map, length_whole]
  exact List.length_filter_le _ m

theorem eq_kept_of_forall {m : Trace} (h : ∀ p ∈ m, p.2 = true) : m = kept (whole m) := by
  rw [kept, whole, List.map_map]
  exact (List.map_id' m).symm.trans (List.map_congr_left fun p hp => Prod.ext rfl (h p hp))

/-- Where nothing is lost, everything is kept. -/
theorem eq_kept_of_length {m : Trace} (h : (left m).length = (whole m).length) : m = kept (whole m) := by
  rw [left, List.length_map, length_whole, List.length_filter_eq_length_iff] at h
  exact eq_kept_of_forall h

/-- A character that is left stands in the trace, and cuts it as it cuts what is left. -/
theorem exists_of_left_eq {m : Trace} {s t : Text} {c : Char} (h : left m = s ++ c :: t) :
    ∃ n n', m = n ++ (c, true) :: n' ∧ left n = s ∧ left n' = t := by
  obtain ⟨l, l', hfilter, rfl, hl⟩ := List.map_eq_append_iff.1 h
  obtain ⟨⟨c', b⟩, l'', rfl, rfl, rfl⟩ := List.map_eq_cons_iff.1 hl
  obtain ⟨n, n₁, rfl, rfl, hn₁⟩ := List.filter_eq_append_iff.1 hfilter
  obtain ⟨n₂, n', rfl, htaken, hc, rfl⟩ := List.filter_eq_cons_iff.1 hn₁
  obtain rfl : b = true := hc
  refine ⟨n ++ n₂, n', by simp, ?_, rfl⟩
  have hnone : n₂.filter Prod.snd = [] := List.filter_eq_nil_iff.2 htaken
  simp only [left, List.filter_append, hnone, List.append_nil]

/-- At one place of a text stands one character, with one mark. -/
theorem mark_inj {m m' n n' : Trace} {c c' : Char} {b b' : Bool} (h : m ++ (c, b) :: m' = n ++ (c', b') :: n')
    (hwhole : whole m = whole n) : b = b' := by
  have hlength : m.length = n.length := by rw [← length_whole, ← length_whole, hwhole]
  obtain ⟨-, htail⟩ := List.append_inj h hlength
  exact congrArg Prod.snd (List.cons.inj htail).1

theorem eq_kept_or_exists_taken (m : Trace) : m = kept (whole m) ∨ ∃ c n n', m = n ++ (c, false) :: n' := by
  by_cases htaken : ∃ c, (c, false) ∈ m
  · obtain ⟨c, hc⟩ := htaken
    exact .inr ⟨c, List.append_of_mem hc⟩
  · refine .inl (eq_kept_of_forall fun p hp => ?_)
    obtain ⟨c, b⟩ := p
    exact eq_true_of_ne_false fun hb => htaken ⟨c, hb ▸ hp⟩

/-- What is taken away ends in no backslash, so that one at the end of a text is left. -/
theorem getLast?_left {m : Trace} (hm : ∀ c, (c, false) ∈ m → c ≠ '\\') (h : (whole m).getLast? = some '\\') :
    (left m).getLast? = some '\\' := by
  cases m using List.reverseRecOn with
  | nil => cases h
  | append_singleton m p =>
    obtain ⟨c, b⟩ := p
    obtain rfl : c = '\\' := by simpa using h
    cases b with
    | false => exact absurd rfl (hm '\\' (List.mem_append_right _ List.mem_cons_self))
    | true => simp

/-- What becomes of each character in two passes, the second of which goes over what the first one leaves. -/
def andThen : Trace → Trace → Trace
  | [], _ => []
  | (c, false) :: m, n => (c, false) :: andThen m n
  | (c, true) :: m, [] => (c, true) :: andThen m []
  | (c, true) :: m, p :: n => (c, p.2) :: andThen m n

theorem whole_andThen (m n : Trace) : whole (andThen m n) = whole m := by
  induction m, n using andThen.induct with
  | case1 => rfl
  | case2 c m n ih => exact congrArg (c :: ·) ih
  | case3 c m ih => exact congrArg (c :: ·) ih
  | case4 c m p n ih => exact congrArg (c :: ·) ih

theorem left_andThen {m n : Trace} (h : whole n = left m) : left (andThen m n) = left n := by
  induction m, n using andThen.induct with
  | case1 n => rw [List.map_eq_nil_iff.1 h, andThen]
  | case2 c m n ih => exact ih h
  | case3 => cases h
  | case4 c m p n ih =>
    obtain ⟨c', b⟩ := p
    obtain ⟨rfl, htail⟩ := List.cons.inj h
    cases b with
    | false => exact ih htail
    | true => exact congrArg (c' :: ·) (ih htail)

theorem andThen_append {m n : Trace} (h : whole n = left m) (m' n' : Trace) :
    andThen (m ++ m') (n ++ n') = andThen m n ++ andThen m' n' := by
  induction m, n using andThen.induct with
  | case1 n =>
    obtain rfl := List.map_eq_nil_iff.1 h
    rfl
  | case2 c m n ih => exact congrArg ((c, false) :: ·) (ih h)
  | case3 => cases h
  | case4 c m p n ih => exact congrArg ((c, p.2) :: ·) (ih (List.cons.inj h).2)

theorem mem_andThen {m n : Trace} (h : whole n = left m) {c : Char} (hc : (c, false) ∈ andThen m n) :
    (c, false) ∈ m ∨ (c, false) ∈ n := by
  induction m, n using andThen.induct with
  | case1 => cases hc
  | case2 c' m n ih =>
    obtain heq | hc := List.mem_cons.1 hc
    · exact .inl (heq ▸ List.mem_cons_self)
    · exact (ih h hc).imp_left (List.mem_cons_of_mem _)
  | case3 => cases h
  | case4 c' m p n ih =>
    obtain ⟨c', b⟩ := p
    obtain ⟨rfl, htail⟩ := List.cons.inj h
    obtain heq | hc := List.mem_cons.1 hc
    · exact .inr (heq ▸ List.mem_cons_self)
    · exact (ih htail hc).imp (List.mem_cons_of_mem _) (List.mem_cons_of_mem _)

/-- What the first pass takes away stays away. -/
theorem exists_andThen_eq {m m' n : Trace} {c : Char} (h : whole n = left (m ++ (c, false) :: m')) :
    ∃ k k', andThen (m ++ (c, false) :: m') n = k ++ (c, false) :: k' ∧ whole k = whole m := by
  rw [left_append] at h
  obtain ⟨n₁, n₂, rfl, hn₁, -⟩ := List.map_eq_append_iff.1 h
  exact ⟨andThen m n₁, andThen m' n₂, andThen_append hn₁ _ _, whole_andThen m n₁⟩

end Trace

open Trace

/-- Whether a backslash stands directly behind a text, `escaped` telling whether one stands before it. -/
def behind (escaped : Bool) (t : Text) : Bool := t.foldl (fun _ c => c == '\\') escaped

theorem behind_cons (escaped : Bool) (c : Char) (t : Text) : behind escaped (c :: t) = behind (c == '\\') t := rfl

theorem behind_append (escaped : Bool) (s t : Text) : behind escaped (s ++ t) = behind (behind escaped s) t :=
  List.foldl_append

theorem behind_eq_false_iff (t : Text) : behind false t = false ↔ t.getLast? ≠ some '\\' := by
  induction t using List.reverseRecOn with
  | nil => simp [behind]
  | append_singleton t c _ => simp [behind]

/-- What a pass recognises ends at the first closing bracket. The text before the replacement is taken
away, and has no backslash. -/
structure Bracketed (field? : Text → Option (Text × Text)) : Prop where
  split : ∀ {t replacement rest}, field? t = some (replacement, rest) → ∃ opening,
    t = opening ++ (replacement ++ '\x7d' :: rest) ∧ opening ≠ [] ∧ '\\' ∉ opening ∧
      '\x7d' ∉ opening ++ replacement

theorem Bracketed.nil {field? : Text → Option (Text × Text)} (h : Bracketed field?) : field? [] = none := by
  cases hfield : field? [] with
  | none => rfl
  | some found =>
    obtain ⟨opening, heq, hne, -⟩ := h.split hfield
    exact absurd (List.append_eq_nil_iff.1 heq.symm).1 hne

/-- A pass over a text, `escaped` telling whether a backslash stands before it. -/
inductive Traced (field? : Text → Option (Text × Text)) : Bool → Trace → Prop
  | nil (escaped : Bool) : Traced field? escaped []
  | char {escaped : Bool} {c : Char} {m : Trace} : (escaped = false → field? (c :: whole m) = none) →
    Traced field? (c == '\\') m → Traced field? escaped ((c, true) :: m)
  | field {opening replacement : Text} {m : Trace} :
    field? (opening ++ (replacement ++ '\x7d' :: whole m)) = some (replacement, whole m) →
    Traced field? false m → Traced field? false (taken opening ++ (kept replacement ++ ('\x7d', false) :: m))

variable {field? : Text → Option (Text × Text)} {pass : Bool → Text → Text} {escaped : Bool} {m : Trace}

theorem exists_traced (hb : Bracketed field?) (escaped : Bool) (t : Text) :
    ∃ m, Traced field? escaped m ∧ whole m = t := by
  induction hn : t.length using Nat.strongRecOn generalizing escaped t with
  | ind n ih =>
    subst hn
    cases hfield : if escaped then none else field? t with
    | some found =>
      obtain ⟨replacement, rest⟩ := found
      cases escaped with
      | true => cases hfield
      | false =>
        rw [if_neg Bool.false_ne_true] at hfield
        obtain ⟨opening, rfl, -⟩ := hb.split hfield
        have hlt : rest.length < (opening ++ (replacement ++ '\x7d' :: rest)).length := by
          simp only [List.length_append, List.length_cons]
          omega
        obtain ⟨m, hm, rfl⟩ := ih _ hlt false rest rfl
        exact ⟨_, .field hfield hm, by simp⟩
    | none =>
      cases t with
      | nil => exact ⟨[], .nil escaped, rfl⟩
      | cons c rest =>
        obtain ⟨m, hm, rfl⟩ := ih _ (Nat.lt_succ_self _) (c == '\\') rest rfl
        refine ⟨_, .char (fun hescaped => ?_) hm, rfl⟩
        rwa [hescaped, if_neg Bool.false_ne_true] at hfield

namespace Traced

theorem left_eq (hpass : Pass field? pass) (h : Traced field? escaped m) : left m = pass escaped (whole m) := by
  induction h with
  | nil escaped => exact (hpass.nil escaped).symm
  | char hnone _ ih => rw [left_cons_kept, whole_cons, hpass.char hnone, ih]
  | field hfield _ ih => simp [hpass.field hfield, ih]

theorem char_inv (hb : Bracketed field?) {c : Char} (h : Traced field? escaped ((c, true) :: m)) :
    (escaped = false → field? (c :: whole m) = none) ∧ Traced field? (c == '\\') m := by
  generalize hn : (c, true) :: m = n at h
  cases h with
  | nil => cases hn
  | char hnone hm =>
    cases hn
    exact ⟨hnone, hm⟩
  | @field opening replacement _ hfield =>
    obtain ⟨opening', heq, hne, -⟩ := hb.split hfield
    obtain rfl := List.append_cancel_right heq
    obtain ⟨o, rest, rfl⟩ := List.exists_cons_of_ne_nil hne
    cases hn

theorem unique {n : Trace} (h : Traced field? escaped m) (h' : Traced field? escaped n)
    (heq : whole m = whole n) : m = n := by
  induction h generalizing n with
  | nil => exact (List.map_eq_nil_iff.1 heq.symm).symm
  | @char escaped c m hnone hm ih =>
    cases h' with
    | nil => cases heq
    | char _ hm' =>
      simp only [whole_cons, List.cons.injEq] at heq
      obtain ⟨rfl, htail⟩ := heq
      rw [ih hm' htail]
    | field hfield _ =>
      simp only [whole_cons, whole_append, whole_taken, whole_kept] at heq
      rw [← heq, hnone rfl] at hfield
      cases hfield
  | @field opening replacement m hfield hm ih =>
    simp only [whole_cons, whole_append, whole_taken, whole_kept] at heq
    -- The text that is recognised comes first in both.
    generalize hstart : false = escaped at h'
    cases h' with
    | nil => simp at heq
    | char hnone _ =>
      rw [whole_cons] at heq
      rw [heq, hnone hstart.symm] at hfield
      cases hfield
    | @field opening' replacement' n hfield' hn =>
      simp only [whole_cons, whole_append, whole_taken, whole_kept] at heq
      rw [heq, hfield'] at hfield
      obtain ⟨rfl, hwhole⟩ := Prod.mk.inj (Option.some.inj hfield)
      rw [hwhole] at heq
      obtain rfl := List.append_cancel_right heq
      rw [ih hn hwhole.symm]

/-- What begins a text and has no closing bracket in it loses the one behind it, or is kept whole. -/
theorem bracket_start (hb : Bracketed field?) (h : Traced field? escaped m) {z y : Text}
    (heq : whole m = z ++ '\x7d' :: y) (hz : '\x7d' ∉ z) :
    (∃ n n', m = n ++ ('\x7d', false) :: n' ∧ whole n = z) ∨ ∃ n', m = kept z ++ ('\x7d', true) :: n' := by
  induction h generalizing z with
  | nil => simp at heq
  | @char escaped c m _ _ ih =>
    cases z with
    | nil =>
      obtain ⟨rfl, -⟩ := List.cons.inj heq
      exact .inr ⟨m, rfl⟩
    | cons c' z =>
      obtain ⟨rfl, htail⟩ := List.cons.inj heq
      obtain ⟨n, n', rfl, rfl⟩ | ⟨n', rfl⟩ := ih htail (List.not_mem_of_not_mem_cons hz)
      · exact .inl ⟨(c, true) :: n, n', rfl, rfl⟩
      · exact .inr ⟨n', rfl⟩
  | @field opening replacement m hfield _ _ =>
    obtain ⟨opening', hsplit, -, -, hbracket⟩ := hb.split hfield
    obtain rfl := List.append_cancel_right hsplit
    simp only [whole_cons, whole_append, whole_taken, whole_kept, ← List.append_assoc] at heq
    obtain ⟨rfl, -⟩ := first_bracket_inj hbracket hz heq
    exact .inl ⟨taken opening ++ kept replacement, m, by simp, by simp⟩

/-- **What has no closing bracket in it loses the one behind it, or is kept whole.** Then the pass has
come to its beginning, and has a backslash before it only if the text has one there. -/
theorem bracket (hb : Bracketed field?) (h : Traced field? escaped m) {x z y : Text}
    (heq : whole m = x ++ (z ++ '\x7d' :: y)) (hz : '\x7d' ∉ z) :
    (∃ n n', m = n ++ ('\x7d', false) :: n' ∧ whole n = x ++ z) ∨
    ∃ n n', m = n ++ (kept z ++ ('\x7d', true) :: n') ∧ whole n = x ∧
      Traced field? (behind escaped x) (kept z ++ ('\x7d', true) :: n') ∧
      ((∀ {t replacement rest}, field? t = some (replacement, rest) → replacement = []) →
        behind escaped (left n) = behind escaped x) := by
  induction h generalizing x with
  | nil => simp at heq
  | @char escaped c m hnone hm ih =>
    cases x with
    | nil =>
      obtain h | ⟨n', hn⟩ := bracket_start hb (.char hnone hm) heq hz
      · exact .inl h
      · exact .inr ⟨[], n', hn, rfl, hn ▸ .char hnone hm, fun _ => rfl⟩
    | cons c' x =>
      obtain ⟨rfl, htail⟩ := List.cons.inj heq
      obtain ⟨n, n', rfl, hn⟩ | ⟨n, n', rfl, rfl, htraced, hleft⟩ := ih htail
      · exact .inl ⟨(c, true) :: n, n', rfl, congrArg (c :: ·) hn⟩
      · exact .inr ⟨(c, true) :: n, n', rfl, rfl, htraced, hleft⟩
  | @field opening replacement m hfield hm ih =>
    obtain ⟨opening', hsplit, -, -, hbracket⟩ := hb.split hfield
    obtain rfl := List.append_cancel_right hsplit
    simp only [whole_cons, whole_append, whole_taken, whole_kept, ← List.append_assoc] at heq
    by_cases hx : '\x7d' ∈ x
    · -- The tab stop ends before what is looked for begins.
      obtain ⟨x₁, x₂, rfl, hx₁⟩ := List.eq_append_cons_of_mem hx
      simp only [List.append_assoc, List.cons_append] at heq
      rw [← List.append_assoc] at heq
      obtain ⟨rfl, htail⟩ := first_bracket_inj hbracket hx₁ heq
      obtain ⟨n, n', rfl, hn⟩ | ⟨n, n', rfl, rfl, htraced, hleft⟩ := ih htail
      · exact .inl ⟨taken opening ++ (kept replacement ++ ('\x7d', false) :: n), n', by simp, by simp [hn]⟩
      · refine .inr ⟨taken opening ++ (kept replacement ++ ('\x7d', false) :: n), n', by simp, by simp, ?_, ?_⟩
        · rwa [behind_append]
        · intro herases
          obtain rfl := herases hfield
          rw [behind_append, behind_cons]
          simpa using hleft herases
    · have hnot : '\x7d' ∉ x ++ z := List.not_mem_append hx hz
      obtain ⟨hstart, -⟩ := first_bracket_inj hbracket hnot heq
      exact .inl ⟨taken opening ++ kept replacement, m, by simp, by simpa using hstart⟩

theorem ne_backslash (hb : Bracketed field?) (h : Traced field? escaped m) {c : Char} (hc : (c, false) ∈ m) :
    c ≠ '\\' := by
  induction h with
  | nil => cases hc
  | char _ _ ih => exact ih ((List.mem_cons.1 hc).resolve_left nofun)
  | @field opening replacement m hfield _ ih =>
    obtain ⟨opening', hsplit, -, hbackslash, -⟩ := hb.split hfield
    obtain rfl := List.append_cancel_right hsplit
    simp only [taken, kept, List.mem_append, List.mem_map, List.mem_cons, Prod.mk.injEq, Bool.true_eq_false,
      and_false, exists_false, and_true, exists_eq_right, false_or] at hc
    rintro rfl
    obtain hc | ⟨⟨⟩⟩ | hc := hc
    · exact hbackslash hc
    · exact ih hc rfl

/-- Everything is kept exactly when nothing in the text is recognised, but for what has a backslash before
it. -/
theorem kept_iff (hb : Bracketed field?) {t : Text} :
    Traced field? escaped (kept t) ↔
      ∀ before after, t = before ++ after → behind escaped before = false → field? after = none := by
  induction t generalizing escaped with
  | nil =>
    refine iff_of_true (.nil escaped) fun before after heq _ => ?_
    rw [(List.append_eq_nil_iff.1 heq.symm).2]
    exact hb.nil
  | cons c t ih =>
    constructor
    · intro h before after heq hbehind
      have hcons : Traced field? escaped ((c, true) :: kept t) := h
      obtain ⟨hnone, ht⟩ := hcons.char_inv hb
      cases before with
      | nil =>
        rw [whole_kept] at hnone
        have heq' : c :: t = after := heq
        rw [← heq']
        exact hnone hbehind
      | cons c' before =>
        obtain ⟨rfl, htail⟩ := List.cons.inj heq
        exact ih.1 ht before after htail hbehind
    · intro h
      refine .char (fun hescaped => ?_) (ih.2 fun before after heq => h (c :: before) after (congrArg (c :: ·) heq))
      exact (whole_kept t).symm ▸ h [] (c :: t) rfl hescaped

/-- What is kept whole is not recognised. -/
theorem not_recognised (hb : Bracketed field?) {z : Text} {n : Trace}
    (h : Traced field? false (kept z ++ ('\x7d', true) :: n)) : field? (z ++ '\x7d' :: whole n) = none := by
  cases z with
  | nil => exact (h.char_inv hb).1 rfl
  | cons c z =>
    have hnone : field? (c :: whole (kept z ++ ('\x7d', true) :: n)) = none := (h.char_inv hb).1 rfl
    rwa [whole_append, whole_kept] at hnone

end Traced

end Shorthand.Expansion.TabStop
