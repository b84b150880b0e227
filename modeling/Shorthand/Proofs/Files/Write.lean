/-
What writing a file into a directory leaves as it was: the directory is still there, and
every other path leads to what it led to before.
-/
import Shorthand.Files.Disk

namespace Shorthand.Files

/-- The segment that leads out of a directory. -/
abbrev dots : Text := ['.', '.']

theorem dots_not_mem_child {d : Path} {name : Text} (hdots : dots ∉ d.segments) (hname : name ≠ dots) :
    dots ∉ (d.child name).segments := by
  rw [Path.child, List.mem_append, List.mem_singleton, not_or]
  exact ⟨hdots, Ne.symm hname⟩

namespace Tree

theorem plainPlace_eq {segments : List Text} (h : dots ∉ segments) : plainPlace segments = segments := by
  have step : ∀ (place : Place) (rest : List Text), dots ∉ rest →
      rest.foldl (fun place s => if s = dots then place.dropLast else place ++ [s]) place = place ++ rest := by
    intro place rest hrest
    induction rest generalizing place with
    | nil => simp
    | cons s rest ih =>
      rw [List.mem_cons, not_or] at hrest
      rw [List.foldl_cons, if_neg (Ne.symm hrest.1), ih _ hrest.2]
      simp
  exact step [] segments h

theorem entry?_insert_of_ne {t : Tree} {q place : Place} {e : Entry} (h : q ≠ place) :
    entry? ⟨t.entries.insert q e⟩ place = t.entry? place := by
  have hne : (q == place) = false := by simpa using h
  unfold entry?
  rw [Data.Dict.get?_insert, hne]
  simp only [Bool.false_eq_true, if_false]

/-! ## Following segments -/

/-- Segments lead to the same place in two trees that agree on the places on the way. -/
theorem follow_congr {t t' : Tree} {place : Place} {segments : List Text} (hdots : dots ∉ segments)
    (h : ∀ front, front <+: segments → t'.entry? (place ++ front) = t.entry? (place ++ front)) :
    t'.follow place segments = t.follow place segments := by
  induction segments generalizing place with
  | nil => rfl
  | cons s rest ih =>
    rw [List.mem_cons, not_or] at hdots
    have hhere := h [] List.nil_prefix
    rw [List.append_nil] at hhere
    have hrest : t'.follow (place ++ [s]) rest = t.follow (place ++ [s]) rest := by
      refine ih hdots.2 fun front hfront => ?_
      have := h (s :: front) (List.cons_prefix_cons.2 ⟨rfl, hfront⟩)
      simpa using this
    rw [follow, follow, hhere, if_neg (Ne.symm hdots.1), hrest]

/-- Where segments lead, and that there is a directory at each place on the way. -/
theorem follow_eq_ok {t : Tree} {place found : Place} {segments : List Text} (hdots : dots ∉ segments)
    (h : t.follow place segments = .ok found) :
    found = place ++ segments ∧
      ∀ front back, segments = front ++ back → back ≠ [] → t.entry? (place ++ front) = some .directory := by
  induction segments generalizing place with
  | nil =>
    cases h
    refine ⟨(List.append_nil _).symm, fun front back hsplit hback => ?_⟩
    exact absurd (List.append_eq_nil_iff.1 hsplit.symm).2 hback
  | cons s rest ih =>
    rw [List.mem_cons, not_or] at hdots
    rw [follow] at h
    split at h
    next hhere =>
      split at h
      · cases h
      · rw [if_neg (Ne.symm hdots.1)] at h
        obtain ⟨hfound, hway⟩ := ih hdots.2 h
        refine ⟨by rw [hfound, List.append_assoc, List.singleton_append], fun front back hsplit hback => ?_⟩
        cases front with
        | nil => rwa [List.append_nil]
        | cons s' front =>
          rw [List.cons_append, List.cons.injEq] at hsplit
          have := hway front back hsplit.2 hback
          rwa [List.append_assoc, List.singleton_append, hsplit.1] at this
    · cases h
    · cases h

/-- A path leads to the same in two trees that agree on the places that lead to it. -/
theorem find_congr {t t' : Tree} {p : Path} (hdots : dots ∉ p.segments)
    (h : ∀ front, front <+: p.segments → t'.entry? front = t.entry? front) : t'.find p = t.find p := by
  rw [find, find, follow_congr hdots h]
  cases hf : t.follow [] p.segments with
  | error why => rfl
  | ok place =>
    obtain ⟨rfl, -⟩ := follow_eq_ok hdots hf
    simp only [List.nil_append, h p.segments List.prefix_rfl]

theorem find_eq_ok {t : Tree} {p : Path} {e : Entry} (h : t.find p = .ok e) :
    ∃ place, t.follow [] p.segments = .ok place ∧ t.entry? place = some e := by
  rw [find] at h
  split at h
  · cases h
  split at h
  · cases h
  split at h
  · cases h
  split at h
  · cases h
  next place hplace =>
    split at h
    next e' he =>
      cases h
      exact ⟨place, hplace, he⟩
    · cases h

/-- All that leads to a directory is a directory. -/
theorem entry?_of_isDirectory {t : Tree} {d : Path} {front : Place} (hdots : dots ∉ d.segments)
    (h : t.isDirectory d = true) (hfront : front <+: d.segments) : t.entry? front = some .directory := by
  rw [isDirectory] at h
  split at h
  next hfound =>
    obtain ⟨place, hplace, hentry⟩ := find_eq_ok hfound
    obtain ⟨rfl, hway⟩ := follow_eq_ok hdots hplace
    obtain ⟨back, hsplit⟩ := hfront
    cases back with
    | nil =>
      rw [List.append_nil] at hsplit
      rwa [hsplit]
    | cons s back => exact hway front (s :: back) hsplit.symm (List.cons_ne_nil s back)
  next => cases h

/-! ## Writing into a directory -/

/-- Directories that are there are not made again. -/
theorem makeDirectoriesFrom_eq {t : Tree} {place : Place} {segments : List Text}
    (h : ∀ front, front <+: segments → t.entry? (place ++ front) = some .directory) :
    t.makeDirectoriesFrom place segments = t := by
  induction segments generalizing place with
  | nil => rfl
  | cons s rest ih =>
    have hthere : (t.entries.get? (place ++ [s])).isSome = true := by
      have hentry := h [s] (List.cons_prefix_cons.2 ⟨rfl, List.nil_prefix⟩)
      unfold entry? at hentry
      rw [if_neg (by simp)] at hentry
      rw [hentry]
      rfl
    simp only [makeDirectoriesFrom, if_pos hthere]
    refine ih fun front hfront => ?_
    have := h (s :: front) (List.cons_prefix_cons.2 ⟨rfl, hfront⟩)
    simpa using this

variable {t : Tree} {d : Path} {name : Text} (hdots : dots ∉ d.segments) (hname : name ≠ dots)
include hdots hname

/-- A file that is written into a directory is all that changes. -/
theorem write_child (h : t.isDirectory d = true) (content : Text.Bytes) :
    t.write (d.child name) content = ⟨t.entries.insert (d.segments ++ [name]) (.file content)⟩ := by
  have hplace : plainPlace (d.child name).segments = d.segments ++ [name] :=
    plainPlace_eq (dots_not_mem_child hdots hname)
  have hmade : t.makeDirectoriesFrom [] d.segments = t := by
    refine makeDirectoriesFrom_eq fun front hfront => ?_
    exact entry?_of_isDirectory hdots h hfront
  simp only [write, hplace, List.dropLast_concat, hmade]

/-- A directory is still there when a file has been written into it. -/
theorem isDirectory_write (h : t.isDirectory d = true) (content : Text.Bytes) :
    (t.write (d.child name) content).isDirectory d = true := by
  rw [write_child hdots hname h, isDirectory, find_congr (t := t) hdots fun front hfront => ?_]
  · exact h
  · refine entry?_insert_of_ne fun heq => ?_
    have hlength := hfront.length_le
    rw [← heq, List.length_append, List.length_singleton] at hlength
    omega

/-- The other files of a directory are as they were. -/
theorem find_write_of_ne (h : t.isDirectory d = true) (content : Text.Bytes) {other : Text}
    (hother : other ≠ dots) (hne : other ≠ name) :
    (t.write (d.child name) content).find (d.child other) = t.find (d.child other) := by
  rw [write_child hdots hname h]
  refine find_congr (dots_not_mem_child hdots hother) fun front hfront => entry?_insert_of_ne ?_
  rintro rfl
  obtain ⟨back, hsplit⟩ := hfront
  rw [Path.child, List.append_assoc, List.append_cancel_left_eq, List.singleton_append,
    List.cons.injEq] at hsplit
  exact hne hsplit.1.symm

end Tree

end Shorthand.Files
