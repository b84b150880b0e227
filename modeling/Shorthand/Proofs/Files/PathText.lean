/-
Paths and the texts they are written as. A path that is read from a text is in normal
form, and goes on to be when its home directory is put in.

`Path.ofText_toText` says that an absolute path in normal form is read back from its text.
-/
import Shorthand.Files.Disk

namespace Shorthand

/-! ## Pieces of a text -/

theorem Text.splitOn_eq (sep : Char) (t : Text) : Text.splitOn sep t = List.splitOn sep t := by
  induction t with
  | nil => rfl
  | cons c rest ih =>
    rw [Text.splitOn, ih, List.splitOn, List.splitOn, List.splitOnP_cons_eq_if_modifyHead]
    by_cases h : c = sep
    · simp [h]
    · have hne : (c == sep) = false := by simpa using h
      rw [if_neg h, hne]
      cases hs : List.splitOnP (· == sep) rest with
      | nil => exact absurd hs (List.splitOnP_ne_nil _ _)
      | cons first pieces => rfl

theorem Text.not_mem_of_mem_splitOn {sep : Char} {t piece : Text} (h : piece ∈ Text.splitOn sep t) :
    sep ∉ piece := by
  induction t generalizing piece with
  | nil =>
    obtain rfl := List.mem_singleton.1 h
    exact List.not_mem_nil
  | cons c rest ih =>
    rw [Text.splitOn] at h
    split at h
    · rcases List.mem_cons.1 h with rfl | h
      · exact List.not_mem_nil
      · exact ih h
    next hc =>
      split at h
      · obtain rfl := List.mem_singleton.1 h
        simpa using Ne.symm hc
      next first pieces hs =>
        rw [hs] at ih
        rcases List.mem_cons.1 h with rfl | h
        · rw [List.mem_cons, not_or]
          exact ⟨Ne.symm hc, ih List.mem_cons_self⟩
        · exact ih (List.mem_cons_of_mem first h)

namespace Files.Path

/-- Every segment names something, and none has a slash in it. -/
def Normal (p : Path) : Prop := ∀ s ∈ p.segments, s ≠ [] ∧ s ≠ ['.'] ∧ '/' ∉ s

theorem normal_ofText (t : Text) : (ofText t).Normal := by
  intro s hs
  obtain ⟨hpiece, hnamed⟩ := List.mem_filter.1 hs
  rw [Bool.and_eq_true, Bool.not_eq_true', bne_iff_ne] at hnamed
  exact ⟨by simpa using hnamed.1, hnamed.2, Text.not_mem_of_mem_splitOn hpiece⟩

theorem Normal.segmentsOf_join {p : Path} (h : p.Normal) (hne : p.segments ≠ []) :
    segmentsOf (Text.joinWith ['/'] p.segments) = p.segments := by
  rw [segmentsOf, Text.splitOn_eq, Text.joinWith,
    List.splitOn_intercalate '/' (fun s hs => (h s hs).2.2) hne, List.filter_eq_self]
  intro s hs
  obtain ⟨hnil, hdot, -⟩ := h s hs
  rw [Bool.and_eq_true, Bool.not_eq_true', bne_iff_ne]
  exact ⟨by simpa using hnil, hdot⟩

/-- The text of the segments does not begin with a slash. -/
theorem Normal.head?_join {p : Path} (h : p.Normal) : (Text.joinWith ['/'] p.segments).head? ≠ some '/' := by
  obtain ⟨root, segments⟩ := p
  cases segments with
  | nil => exact nofun
  | cons s rest =>
    obtain ⟨hnil, -, hslash⟩ := h s List.mem_cons_self
    cases s with
    | nil => exact absurd rfl hnil
    | cons c s =>
      have hc : c ≠ '/' := fun hc => hslash (by simp [hc])
      cases rest with
      | nil => simpa [Text.joinWith] using hc
      | cons s' rest => simpa [Text.joinWith, List.intercalate_cons_cons] using hc

theorem segmentsOf_slash (t : Text) : segmentsOf ('/' :: t) = segmentsOf t := by
  rw [segmentsOf, Text.splitOn, if_pos rfl]
  rfl

theorem rootOf_slash {t : Text} (h : t.head? ≠ some '/') : rootOf ('/' :: t) = .single := by
  cases t with
  | nil => rfl
  | cons c rest =>
    have hc : c ≠ '/' := fun hc => h (by rw [hc]; rfl)
    rw [rootOf]
    · intro rest' hr
      simp only [List.cons.injEq] at hr
      exact hc hr.1
    · intro rest' hr
      simp only [List.cons.injEq] at hr
      exact hc hr.1

theorem rootOf_slashes {t : Text} (h : t.head? ≠ some '/') : rootOf ('/' :: '/' :: t) = .double := by
  cases t with
  | nil => rfl
  | cons c rest =>
    have hc : c ≠ '/' := fun hc => h (by rw [hc]; rfl)
    rw [rootOf]
    intro rest' hr
    simp only [List.cons.injEq] at hr
    exact hc hr.1

/-- **An absolute path is read back from its text.** -/
theorem ofText_toText {p : Path} (h : p.Normal) (ha : p.isAbsolute = true) : ofText p.toText = p := by
  have hhead := h.head?_join
  have hsegments : segmentsOf (Text.joinWith ['/'] p.segments) = p.segments := by
    by_cases hne : p.segments = []
    · rw [hne]
      rfl
    · exact h.segmentsOf_join hne
  obtain ⟨root, segments⟩ := p
  cases root with
  | relative => cases ha
  | single =>
    have htext : toText ⟨.single, segments⟩ = '/' :: Text.joinWith ['/'] segments := rfl
    rw [htext, ofText, rootOf_slash hhead, segmentsOf_slash, hsegments]
  | double =>
    have htext : toText ⟨.double, segments⟩ = '/' :: '/' :: Text.joinWith ['/'] segments := rfl
    rw [htext, ofText, rootOf_slashes hhead, segmentsOf_slash, segmentsOf_slash, hsegments]

end Files.Path

/-! ## Home directories -/

namespace Files.Disk

/-- The home directories are in normal form. -/
def Normal (disk : Disk) : Prop := disk.home.Normal ∧ ∀ entry ∈ disk.homes, entry.2.Normal

theorem Normal.expandHome {disk : Disk} {p d : Path} (hdisk : disk.Normal) (hp : p.Normal)
    (h : disk.expandHome p = .ok d) : d.Normal := by
  rw [Disk.expandHome] at h
  split at h
  next name rest _ hsegments =>
    have hrest : ∀ s ∈ rest, s ≠ [] ∧ s ≠ ['.'] ∧ '/' ∉ s := by
      intro s hs
      exact hp s (by rw [hsegments]; exact List.mem_cons_of_mem _ hs)
    have happend : ∀ home : Path, home.Normal →
        Path.Normal { home with segments := home.segments ++ rest } := by
      intro home hhome s hs
      rcases List.mem_append.1 hs with hs | hs
      · exact hhome s hs
      · exact hrest s hs
    split at h
    · cases h
      exact happend disk.home hdisk.1
    · cases hlookup : disk.homes.lookup name with
      | none =>
        rw [hlookup] at h
        cases h
      | some home =>
        rw [hlookup] at h
        cases h
        obtain ⟨before, after, hentries, -⟩ := List.lookup_eq_some_iff.1 hlookup
        exact happend home (hdisk.2 (name, home) (by rw [hentries]; simp))
  next =>
    cases h
    exact hp

end Files.Disk

end Shorthand
