/-
A text read in backslash pairs from its start: a backslash takes the next character with it.
What is masked, what an escaped bar stands for and which bar ends an abbreviation are all said of
this one reading.

`signs_append_cases` is what a cut does to it: the two parts are read on their own, or the cut is in
the middle of a pair. In a masked text such a cut is between two underscores (`signs_take_drop`).
-/
import Shorthand.Abbreviation.Filter
import Shorthand.Proofs.Text.Trim

namespace Shorthand.Abbreviation

open Text (Blank)

/-- What a text is read as: a character on its own, or one that a backslash takes with it. -/
inductive Sign where
  | bare (c : Char)
  | escaped (c : Char)
  deriving DecidableEq, Repr

namespace Sign

/-- What is written for a sign. -/
def text : Sign → Text
  | bare c => [c]
  | escaped c => ['\\', c]

def masked : Sign → Text
  | bare c => [c]
  | escaped _ => ['_', '_']

/-- What a sign stands for: an escaped bar is a bar, anything else is what is written. -/
def resolved : Sign → Text
  | bare c => [c]
  | escaped c => if c = '|' then ['|'] else ['\\', c]

end Sign

/-- The signs of a text. A backslash at the very end stands on its own. -/
def signs : Text → List Sign
  | [] => []
  | '\\' :: c :: rest => .escaped c :: signs rest
  | c :: rest => .bare c :: signs rest

/-- The text with each escaped bar written as a bar. -/
def resolve (t : Text) : Text := (signs t).flatMap Sign.resolved

variable {s t : Text}

/-! ## Reading from the start -/

theorem signs_cons {c : Char} (hc : c ≠ '\\') (rest : Text) : signs (c :: rest) = .bare c :: signs rest := by
  rw [signs]
  exact fun _ _ h _ => hc h

@[elab_as_elim]
theorem sign_induction {motive : Text → Prop} (nil : motive []) (last : motive ['\\'])
    (bare : ∀ c rest, c ≠ '\\' → motive rest → motive (c :: rest))
    (escaped : ∀ c rest, motive rest → motive ('\\' :: c :: rest)) (t : Text) : motive t := by
  induction t using signs.induct with
  | case1 => exact nil
  | case2 c rest ih => exact escaped c rest ih
  | case3 c rest hpair ih =>
    by_cases hc : c = '\\'
    · cases rest with
      | nil => exact hc ▸ last
      | cons c' rest => exact absurd rfl (hpair c' rest hc)
    · exact bare c rest hc ih

/-- The signs of a text are what it is written as. -/
theorem flatMap_text_signs (t : Text) : (signs t).flatMap Sign.text = t := by
  induction t using sign_induction with
  | nil => rfl
  | last => rfl
  | bare c rest hc ih => rw [signs_cons hc, List.flatMap_cons, ih]; rfl
  | escaped c rest ih => rw [signs, List.flatMap_cons, ih]; rfl

theorem signs_append_of_not_mem (h : '\\' ∉ s) (t : Text) : signs (s ++ t) = s.map .bare ++ signs t := by
  induction s with
  | nil => rfl
  | cons c s ih =>
    obtain ⟨hc, hs⟩ := not_or.1 (mt List.mem_cons.2 h)
    rw [List.cons_append, signs_cons (Ne.symm hc), ih hs]
    rfl

theorem signs_of_not_mem (h : '\\' ∉ t) : signs t = t.map .bare := by
  have happend := signs_append_of_not_mem h []
  rwa [List.append_nil, signs, List.append_nil] at happend

/-- **A cut either leaves two texts that are read on their own, or parts a pair.** -/
theorem signs_append_cases (s t : Text) :
    signs (s ++ t) = signs s ++ signs t ∨
      ∃ s' c t', s = s' ++ ['\\'] ∧ t = c :: t' ∧ signs s = signs s' ++ [.bare '\\'] ∧
        signs (s ++ t) = signs s' ++ .escaped c :: signs t' := by
  induction s using sign_induction with
  | nil => exact .inl rfl
  | last =>
    cases t with
    | nil => exact .inl rfl
    | cons c t => exact .inr ⟨[], c, t, rfl, rfl, rfl, rfl⟩
  | bare c s hc ih =>
    rw [List.cons_append, signs_cons hc, signs_cons hc]
    rcases ih with h | ⟨s', c', t', rfl, rfl, hs, h⟩
    · exact .inl (by rw [h]; rfl)
    · exact .inr ⟨c :: s', c', t', rfl, rfl, by rw [hs, signs_cons hc]; rfl, by rw [h, signs_cons hc]; rfl⟩
  | escaped c s ih =>
    rw [List.cons_append, List.cons_append, signs, signs]
    rcases ih with h | ⟨s', c', t', rfl, rfl, hs, h⟩
    · exact .inl (by rw [h]; rfl)
    · exact .inr ⟨'\\' :: c :: s', c', t', rfl, rfl, by rw [hs, signs]; rfl, by rw [h, signs]; rfl⟩

/-- Behind a text that leaves no backslash over, what follows is read on its own. -/
theorem signs_append (h : .bare '\\' ∉ signs s) (t : Text) : signs (s ++ t) = signs s ++ signs t := by
  rcases signs_append_cases s t with happ | ⟨s', c, t', -, -, hs, -⟩
  · exact happ
  · exact absurd (hs ▸ List.mem_append_right _ List.mem_cons_self) h

/-- A sign stays one with more behind it, the last backslash apart. -/
theorem mem_signs_append {sign : Sign} (hsign : sign ≠ .bare '\\') (h : sign ∈ signs s) (t : Text) :
    sign ∈ signs (s ++ t) := by
  rcases signs_append_cases s t with happ | ⟨s', c', t', -, -, hs, happ⟩
  · rw [happ]
    exact List.mem_append_left _ h
  · rw [hs] at h
    rw [happ]
    rcases List.mem_append.1 h with h | h
    · exact List.mem_append_left _ h
    · exact absurd (List.mem_singleton.1 h) hsign

/-- Only at the very end does a backslash stand on its own. -/
theorem not_mem_of_signs_append (h : signs (s ++ t) = signs s ++ signs t) (ht : t ≠ []) :
    .bare '\\' ∉ signs s := by
  induction s using sign_induction with
  | nil => exact List.not_mem_nil
  | last =>
    cases t with
    | nil => exact absurd rfl ht
    | cons c t => cases h
  | bare c s hc ih =>
    rw [List.cons_append, signs_cons hc, signs_cons hc, List.cons_append, List.cons.injEq] at h
    rw [signs_cons hc, List.mem_cons, not_or]
    exact ⟨by simpa using Ne.symm hc, ih h.2⟩
  | escaped c s ih =>
    rw [List.cons_append, List.cons_append, signs, signs, List.cons_append, List.cons.injEq] at h
    rw [signs, List.mem_cons, not_or]
    exact ⟨nofun, ih h.2⟩

theorem getLast?_of_bare_escape (h : .bare '\\' ∈ signs t) : t.getLast? = some '\\' := by
  induction t using sign_induction with
  | nil => cases h
  | last => rfl
  | bare c rest hc ih =>
    rw [signs_cons hc, List.mem_cons] at h
    rcases h with h | h
    · exact absurd (Sign.bare.inj h).symm hc
    · rw [List.getLast?_cons, ih h, Option.getD_some]
  | escaped c rest ih =>
    rw [signs, List.mem_cons] at h
    rcases h with h | h
    · cases h
    · rw [List.getLast?_cons, List.getLast?_cons, ih h, Option.getD_some, Option.getD_some]

/-! ## Masked texts -/

theorem maskEscapes_cons {c : Char} (hc : c ≠ '\\') (rest : Text) : maskEscapes (c :: rest) = c :: maskEscapes rest := by
  rw [maskEscapes]
  exact fun _ _ h _ => hc h

theorem maskEscapes_eq (t : Text) : maskEscapes t = (signs t).flatMap Sign.masked := by
  induction t using sign_induction with
  | nil => rfl
  | last => rfl
  | bare c rest hc ih => rw [maskEscapes_cons hc, ih, signs_cons hc]; rfl
  | escaped c rest ih => rw [maskEscapes, ih, signs]; rfl

theorem length_maskEscapes (t : Text) : (maskEscapes t).length = t.length := by
  induction t using maskEscapes.induct with
  | case1 => rfl
  | case2 c rest ih => simp only [maskEscapes, List.length_cons, ih]
  | case3 c rest hpair ih => rw [maskEscapes, List.length_cons, ih, List.length_cons]; exact hpair

theorem maskEscapes_append (h : signs (s ++ t) = signs s ++ signs t) :
    maskEscapes (s ++ t) = maskEscapes s ++ maskEscapes t := by
  rw [maskEscapes_eq, h, List.flatMap_append, ← maskEscapes_eq, ← maskEscapes_eq]

theorem mem_of_mem_maskEscapes {c : Char} (h : c ∈ maskEscapes t) (hc : c ≠ '_') : c ∈ t := by
  rw [maskEscapes_eq] at h
  obtain ⟨sign, hsign, hmasked⟩ := List.mem_flatMap.1 h
  cases sign with
  | bare c' =>
    rw [← flatMap_text_signs t]
    exact List.mem_flatMap.2 ⟨_, hsign, hmasked⟩
  | escaped c' => exact absurd (by simpa [Sign.masked] using hmasked) hc

theorem maskEscapes_of_not_mem (h : '\\' ∉ t) : maskEscapes t = t := by
  rw [maskEscapes_eq, signs_of_not_mem h, List.flatMap_map]
  exact List.flatMap_singleton' t

/-- A masked text without underscores is the text itself. -/
theorem maskEscapes_eq_self (h : '_' ∉ maskEscapes t) : maskEscapes t = t := by
  rw [maskEscapes_eq] at h ⊢
  calc (signs t).flatMap Sign.masked
    _ = (signs t).flatMap Sign.text := by
        refine List.flatMap_congr fun sign hsign => ?_
        cases sign with
        | bare c => rfl
        | escaped c => exact absurd (List.mem_flatMap.2 ⟨_, hsign, List.mem_cons_self⟩) h
    _ = t := flatMap_text_signs t

/-- A text is cut between two signs where the masked text is not cut between two underscores. -/
theorem signs_take_drop {i : Nat}
    (h : 0 < i → (maskEscapes t)[i - 1]? = some '_' → (maskEscapes t)[i]? ≠ some '_') :
    signs t = signs (t.take i) ++ signs (t.drop i) := by
  rcases signs_append_cases (t.take i) (t.drop i) with happ | ⟨s', c, t', htake, hdrop, -, hpair⟩
  · rwa [List.take_append_drop] at happ
  · rw [List.take_append_drop] at hpair
    have hi : i = s'.length + 1 := by
      have hlength : (t.take i).length = s'.length + 1 := by rw [htake, List.length_append]; rfl
      have hlt : i < t.length := by
        by_contra hge
        rw [List.drop_of_length_le (Nat.le_of_not_lt hge)] at hdrop
        cases hdrop
      rwa [List.length_take_of_le (Nat.le_of_lt hlt)] at hlength
    have hmask : maskEscapes t = maskEscapes s' ++ '_' :: '_' :: maskEscapes t' := by
      rw [maskEscapes_eq, hpair, List.flatMap_append, List.flatMap_cons, ← maskEscapes_eq, ← maskEscapes_eq]
      rfl
    have hlength : (maskEscapes s').length = s'.length := length_maskEscapes s'
    refine absurd ?_ (h (by omega) ?_)
    · rw [hmask, hi, List.getElem?_append_right (by omega), hlength, Nat.add_sub_cancel_left]
      rfl
    · rw [hmask, hi, Nat.add_sub_cancel, List.getElem?_append_right (by omega), hlength, Nat.sub_self]
      rfl

theorem maskEscapes_drop {i : Nat} (h : signs t = signs (t.take i) ++ signs (t.drop i)) :
    maskEscapes (t.drop i) = (maskEscapes t).drop i := by
  have happend := maskEscapes_append (s := t.take i) (t := t.drop i) (by rwa [List.take_append_drop])
  rw [List.take_append_drop] at happend
  by_cases hi : i ≤ t.length
  · have hlength : (maskEscapes (t.take i)).length = i := by
      rw [length_maskEscapes, List.length_take_of_le hi]
    rw [happend, List.drop_left' hlength]
  · have hle : t.length ≤ i := by omega
    rw [List.drop_of_length_le hle, List.drop_of_length_le (by rwa [length_maskEscapes])]
    rfl

/-! ## The first bar that is not escaped -/

theorem resolve_nil : resolve [] = [] := rfl

theorem resolve_bare {c : Char} (hc : c ≠ '\\') (rest : Text) : resolve (c :: rest) = c :: resolve rest := by
  rw [resolve, signs_cons hc]
  rfl

theorem resolve_escaped (c : Char) (rest : Text) :
    resolve ('\\' :: c :: rest) = (Sign.escaped c).resolved ++ resolve rest := rfl

theorem splitAtBar_bare {c : Char} (hc : c ≠ '\\') (hbar : c ≠ '|') (rest : Text) :
    splitAtBar (c :: rest) = (c :: (splitAtBar rest).1, (splitAtBar rest).2) := by
  rw [splitAtBar, if_neg hbar]
  exact fun _ _ h _ => hc h

theorem splitAtBar_escaped (c : Char) (rest : Text) :
    splitAtBar ('\\' :: c :: rest) =
      ((Sign.escaped c).resolved ++ (splitAtBar rest).1, (splitAtBar rest).2) := by
  rw [splitAtBar, Sign.resolved]
  by_cases hc : c = '|'
  · simp [hc]
  · simp [hc]

theorem splitAtBar_of_not_mem (h : .bare '|' ∉ signs t) : splitAtBar t = (resolve t, none) := by
  induction t using sign_induction with
  | nil => rfl
  | last => rfl
  | bare c rest hc ih =>
    rw [signs_cons hc, List.mem_cons, not_or] at h
    have hbar : c ≠ '|' := fun hbar => h.1 (by rw [hbar])
    rw [splitAtBar_bare hc hbar, ih h.2, resolve_bare hc]
  | escaped c rest ih =>
    rw [signs, List.mem_cons, not_or] at h
    rw [splitAtBar_escaped, ih h.2, resolve_escaped]

theorem splitAtBar_append_bar (h : .bare '|' ∉ signs s) (hend : .bare '\\' ∉ signs s) (rest : Text) :
    splitAtBar (s ++ '|' :: rest) = (resolve s, some rest) := by
  induction s using sign_induction with
  | nil => rfl
  | last => exact absurd List.mem_cons_self hend
  | bare c s hc ih =>
    rw [signs_cons hc, List.mem_cons, not_or] at h hend
    have hbar : c ≠ '|' := fun hbar => h.1 (by rw [hbar])
    rw [List.cons_append, splitAtBar_bare hc hbar, ih h.2 hend.2, resolve_bare hc]
  | escaped c s ih =>
    rw [signs, List.mem_cons, not_or] at h hend
    rw [List.cons_append, List.cons_append, splitAtBar_escaped, ih h.2 hend.2, resolve_escaped]

/-! ## Blanks -/

section Blanks

variable {ws : Text}

theorem resolve_blank_append (hws : Blank ws) (t : Text) : resolve (ws ++ t) = ws ++ resolve t := by
  have hbackslash : '\\' ∉ ws := Text.not_mem_of_blank hws (by decide)
  rw [resolve, signs_append_of_not_mem hbackslash, List.flatMap_append, resolve, List.flatMap_map]
  exact congrArg (· ++ _) (List.flatMap_singleton' ws)

theorem resolve_blank (hws : Blank ws) : resolve ws = ws := by
  have happend := resolve_blank_append hws []
  rwa [List.append_nil, resolve_nil, List.append_nil] at happend

/-- A blank behind a backslash is kept with it, so that blanks at the end stay what they are. -/
theorem resolve_append_blank (hws : Blank ws) (t : Text) : resolve (t ++ ws) = resolve t ++ ws := by
  rcases signs_append_cases t ws with happ | ⟨t', c, ws', rfl, rfl, ht, h⟩
  · rw [resolve, happ, List.flatMap_append, ← resolve, ← resolve, resolve_blank hws]
  · have hws' : Blank ws' := fun c hc => hws c (List.mem_cons_of_mem _ hc)
    have hbar : c ≠ '|' := by
      rintro rfl
      exact Text.not_mem_of_blank hws (by decide) List.mem_cons_self
    rw [resolve, h, resolve, ht, List.flatMap_append, List.flatMap_cons, ← resolve, ← resolve,
      resolve_blank hws', List.flatMap_append, Sign.resolved, if_neg hbar, List.append_assoc]
    rfl

/-- A sign of a text without the blanks at its start is one of the text. -/
theorem mem_signs_of_trimStart {sign : Sign} (h : sign ∈ signs (Text.trimStart t)) : sign ∈ signs t := by
  obtain ⟨ws, hws, ht⟩ := Text.exists_trimStart t
  rw [ht, signs_append_of_not_mem (Text.not_mem_of_blank hws (by decide))]
  exact List.mem_append_right _ h

theorem mem_signs_of_trim {sign : Sign} (hsign : sign ≠ .bare '\\') (h : sign ∈ signs (Text.trim t)) :
    sign ∈ signs t := by
  obtain ⟨ws, -, ht⟩ := Text.exists_trimEnd (Text.trimStart t)
  refine mem_signs_of_trimStart ?_
  rw [ht]
  exact mem_signs_append hsign h ws

theorem trim_resolve_trimStart (t : Text) : Text.trim (resolve (Text.trimStart t)) = Text.trim (resolve t) := by
  obtain ⟨ws, hws, ht⟩ := Text.exists_trimStart t
  calc Text.trim (resolve (Text.trimStart t))
    _ = Text.trim (ws ++ resolve (Text.trimStart t)) := (Text.trim_blank_append hws _).symm
    _ = Text.trim (resolve t) := by rw [← resolve_blank_append hws, ← ht]

theorem trim_resolve_trim (t : Text) : Text.trim (resolve (Text.trim t)) = Text.trim (resolve t) := by
  obtain ⟨ws, hws, ht⟩ := Text.exists_trimEnd (Text.trimStart t)
  have ht : Text.trimStart t = Text.trim t ++ ws := ht
  calc Text.trim (resolve (Text.trim t))
    _ = Text.trim (resolve (Text.trim t) ++ ws) := (Text.trim_append_blank hws _).symm
    _ = Text.trim (resolve (Text.trimStart t)) := by rw [← resolve_append_blank hws, ← ht]
    _ = Text.trim (resolve t) := trim_resolve_trimStart t

/-- Resolving takes no character away but backslashes. -/
theorem blank_of_resolve (h : Blank (resolve t)) : Blank t := by
  rw [← flatMap_text_signs t]
  intro c hc
  obtain ⟨sign, hsign, hc⟩ := List.mem_flatMap.1 hc
  have hresolved : Blank sign.resolved := fun c hc => h c (List.mem_flatMap.2 ⟨sign, hsign, hc⟩)
  cases sign with
  | bare c' => exact hresolved c hc
  | escaped c' =>
    rw [Sign.resolved] at hresolved
    split at hresolved
    · exact absurd List.mem_cons_self (Text.not_mem_of_blank hresolved (c := '|') (by decide))
    · exact absurd List.mem_cons_self (Text.not_mem_of_blank hresolved (c := '\\') (by decide))

end Blanks

end Shorthand.Abbreviation
