/-
What a load reads and what it makes of it: its two sources one after the other, then the
snapshot of both.

`load_eq_error_iff` says exactly when a load ends without a snapshot.
-/
import Mathlib.Data.List.Find
import Shorthand.Extensions.Load

namespace Shorthand.Extensions

open Data Files

/-! ## The file of a source -/

theorem isTooLong_of_isFile {tree : Tree} {file : Path} (h : tree.isFile file = true) :
    tree.isTooLong file = false := by
  rw [Tree.isFile] at h
  rw [Tree.isTooLong]
  split at h
  next hf => rw [hf]
  next hf => rw [hf]
  next => cases h

/-- The first of the files a source may be that is there, or whose name is too long to
look for. -/
def FirstFile (tree : Tree) (d : Path) (name : Text) (file : Path) (fileExtension : Text) : Prop :=
  (tree.isFile file = true ∨ tree.isTooLong file = true) ∧
  ∃ before after, sourceFiles d name = before ++ (file, fileExtension) :: after ∧
    ∀ other ∈ before, tree.isFile other.1 = false ∧ tree.isTooLong other.1 = false

theorem find?_sourceFiles_iff {tree : Tree} {d : Path} {name : Text} {file : Path} {fileExtension : Text} :
    (sourceFiles d name).find? (fun (file, _) => tree.isFile file || tree.isTooLong file) =
        some (file, fileExtension) ↔
      FirstFile tree d name file fileExtension := by
  simp only [List.find?_eq_some_iff_append, FirstFile, Bool.or_eq_true, Bool.not_eq_true',
    Bool.or_eq_false_iff]

theorem sourceFile?_eq_some_iff {tree : Tree} {d : Path} {name : Text} {file : Path} {fileExtension : Text} :
    sourceFile? tree d name = .ok (some (file, fileExtension)) ↔
      FirstFile tree d name file fileExtension ∧ tree.isTooLong file = false := by
  rw [← find?_sourceFiles_iff, sourceFile?]
  split
  next hf => simp [hf]
  next first e hf =>
    rw [hf, Option.some.injEq, Prod.mk.injEq]
    split
    next hlong =>
      simp only [reduceCtorEq, false_iff, not_and]
      rintro ⟨rfl, rfl⟩
      simp [hlong]
    next hshort =>
      rw [Except.ok.injEq, Option.some.injEq, Prod.mk.injEq]
      refine ⟨fun h => ⟨h, ?_⟩, And.left⟩
      rw [← h.1]
      simpa using hshort

theorem sourceFile?_eq_error_iff {tree : Tree} {d : Path} {name : Text} {why : LoadFault} :
    sourceFile? tree d name = .error why ↔
      ∃ file fileExtension, FirstFile tree d name file fileExtension ∧ tree.isTooLong file = true ∧
        why = .nameTooLong file := by
  simp only [← find?_sourceFiles_iff, sourceFile?]
  split
  next hf => simp [hf]
  next first e hf =>
    simp only [hf, Option.some.injEq, Prod.mk.injEq]
    split
    next hlong =>
      rw [Except.error.injEq]
      constructor
      · rintro rfl
        exact ⟨first, e, ⟨rfl, rfl⟩, hlong, rfl⟩
      · rintro ⟨_, _, ⟨rfl, rfl⟩, -, rfl⟩
        rfl
    next hshort =>
      simp only [reduceCtorEq, false_iff]
      rintro ⟨_, _, ⟨rfl, rfl⟩, hlong, -⟩
      exact hshort hlong

/-! ## A file -/

theorem isFile_of_read {tree : Tree} {file : Path} {content : Text.Bytes} (h : tree.read file = .ok content) :
    tree.isFile file = true := by
  rw [Tree.read] at h
  rw [Tree.isFile]
  split at h
  next hf => rw [hf]
  next => cases h
  next => cases h
  next => cases h

section File

variable {readers : Readers} {tree : Tree} {file : Path} {fileExtension : Text}

theorem readFile_of_read {content : Text.Bytes} (h : tree.read file = .ok content) :
    readFile readers tree file fileExtension =
      (readContent readers fileExtension content).mapError
        (.ofContent (readers.complaint? fileExtension content)) := by
  simp only [readFile, h]

theorem readFile_of_fault {why : AccessFault} (h : tree.read file = .error why) :
    readFile readers tree file fileExtension = .error (.refused (some (why.message file))) := by
  simp only [readFile, h]

theorem readFile_eq_ok_iff {v : Value} :
    readFile readers tree file fileExtension = .ok v ↔
      ∃ content, tree.read file = .ok content ∧ readContent readers fileExtension content = .ok v := by
  cases hread : tree.read file with
  | error why => simp [readFile_of_fault hread]
  | ok content =>
    rw [readFile_of_read hread]
    cases hvalue : readContent readers fileExtension content <;> simp [Except.mapError, hvalue]

/-- Only in a file that is read can an obstacle be met. -/
theorem readFile_eq_obstacle_iff {why : Obstacle} :
    readFile readers tree file fileExtension = .error (.obstacle why) ↔
      ∃ content, tree.read file = .ok content ∧
        readContent readers fileExtension content = .error (.obstacle why) := by
  cases hread : tree.read file with
  | error why => simp [readFile_of_fault hread]
  | ok content =>
    rw [readFile_of_read hread]
    cases hvalue : readContent readers fileExtension content with
    | ok v => simp [Except.mapError, hvalue]
    | error fault => cases fault <;> simp [Except.mapError, FileFault.ofContent, hvalue]

end File

/-! ## A source -/

/-- What ends the reading of a source: a name that is too long to look for, or an obstacle
in the file. All else that is wrong with the file is a problem to be reported. -/
inductive SourceFault (readers : Readers) (tree : Tree) (d : Path) (name : Text) : LoadFault → Prop
  | nameTooLong {file fileExtension} (first : FirstFile tree d name file fileExtension)
      (long : tree.isTooLong file = true) : SourceFault readers tree d name (.nameTooLong file)
  | obstacle {file fileExtension why} (first : FirstFile tree d name file fileExtension)
      (met : readFile readers tree file fileExtension = .error (.obstacle why)) :
      SourceFault readers tree d name (.obstacle why)

theorem readSource_eq_error_iff {readers : Readers} {tree : Tree} {d : Path} {name : Text} {why : LoadFault} :
    readSource readers tree d name = .error why ↔ SourceFault readers tree d name why := by
  constructor
  · intro h
    rw [readSource] at h
    split at h
    next hs =>
      cases h
      obtain ⟨file, e, first, long, rfl⟩ := sourceFile?_eq_error_iff.1 hs
      exact .nameTooLong first long
    next => cases h
    next file e hs =>
      split at h
      · cases h
      next met =>
        cases h
        exact .obstacle (sourceFile?_eq_some_iff.1 hs).1 met
      next => split at h <;> cases h
  · intro h
    cases h with
    | nameTooLong first long =>
      rw [readSource, sourceFile?_eq_error_iff.2 ⟨_, _, first, long, rfl⟩]
    | obstacle first met =>
      obtain ⟨content, hread, -⟩ := readFile_eq_obstacle_iff.1 met
      have hs := sourceFile?_eq_some_iff.2 ⟨first, isTooLong_of_isFile (isFile_of_read hread)⟩
      simp only [readSource, hs, met]

section Congr

variable {tree tree' : Tree} {d : Path} {name : Text}
  (h : ∀ f ∈ sourceFiles d name, tree'.find f.1 = tree.find f.1)
include h

theorem sourceFile?_congr : sourceFile? tree' d name = sourceFile? tree d name := by
  have hfind : (sourceFiles d name).find? (fun (file, _) => tree'.isFile file || tree'.isTooLong file) =
      (sourceFiles d name).find? fun (file, _) => tree.isFile file || tree.isTooLong file :=
    List.find?_congr fun f hf => by
      simp only [Tree.isFile, Tree.isTooLong, h f hf]
  rw [sourceFile?, hfind, sourceFile?]
  cases hf : (sourceFiles d name).find? fun (file, _) => tree.isFile file || tree.isTooLong file with
  | none => rfl
  | some f =>
    have hlong : tree'.isTooLong f.1 = tree.isTooLong f.1 := by
      rw [Tree.isTooLong, Tree.isTooLong, h f (List.mem_of_find?_eq_some hf)]
    simp only [hlong]

/-- A source is read alike from two trees in which its files are the same. -/
theorem readSource_congr (readers : Readers) :
    readSource readers tree' d name = readSource readers tree d name := by
  rw [readSource, sourceFile?_congr h, readSource]
  split
  · rfl
  · rfl
  next file fileExtension hs =>
    obtain ⟨-, before, after, hfiles, -⟩ := (sourceFile?_eq_some_iff.1 hs).1
    have hfile : readFile readers tree' file fileExtension = readFile readers tree file fileExtension := by
      have hsame := h (file, fileExtension) (by rw [hfiles]; simp)
      simp only [readFile, Tree.read, hsame]
    rw [hfile]

end Congr

/-! ## A load -/

/-- What a load makes of its two sources when it has read them. -/
def combine (d : Path) (generation : Nat) (snippets profiles : Mapping × Option Problem) :
    Except LoadFault (Snapshot × List Problem) :=
  if hasLongKey snippets.1 then .error .keyTooLong
  else .ok (snapshotOf generation d snippets.1 profiles.1, snippets.2.toList ++ profiles.2.toList)

theorem load_of_read {readers : Readers} {tree : Tree} {d : Path}
    {snippets profiles : Mapping × Option Problem} (hs : readSource readers tree d snippetsName = .ok snippets)
    (hp : readSource readers tree d profilesName = .ok profiles) (n : Nat) :
    load readers tree d n = combine d n snippets profiles := by
  simp only [load, hs, hp, bind, Except.bind, combine]
  split <;> rfl

theorem exists_read_of_load {readers : Readers} {tree : Tree} {d : Path} {n : Nat}
    {loaded : Snapshot × List Problem} (h : load readers tree d n = .ok loaded) :
    ∃ snippets profiles, readSource readers tree d snippetsName = .ok snippets ∧
      readSource readers tree d profilesName = .ok profiles ∧ combine d n snippets profiles = .ok loaded := by
  cases hs : readSource readers tree d snippetsName with
  | error why =>
    simp only [load, hs, bind, Except.bind] at h
    cases h
  | ok snippets =>
    cases hp : readSource readers tree d profilesName with
    | error why =>
      simp only [load, hs, hp, bind, Except.bind] at h
      cases h
    | ok profiles =>
      rw [load_of_read hs hp] at h
      exact ⟨snippets, profiles, rfl, rfl, h⟩

/-- What ends a load: one of its sources, or a key among its snippets that cannot be
written. -/
inductive LoadEnds (readers : Readers) (tree : Tree) (d : Path) : LoadFault → Prop
  | snippets {why} (fault : SourceFault readers tree d snippetsName why) : LoadEnds readers tree d why
  | profiles {why} (before : ∀ why, ¬ SourceFault readers tree d snippetsName why)
      (fault : SourceFault readers tree d profilesName why) : LoadEnds readers tree d why
  | key {snippets problem} (read : readSource readers tree d snippetsName = .ok (snippets, problem))
      (before : ∀ why, ¬ SourceFault readers tree d profilesName why)
      (long : hasLongKey snippets = true) : LoadEnds readers tree d .keyTooLong

theorem exists_read_of_not_fault {readers : Readers} {tree : Tree} {d : Path} {name : Text}
    (h : ∀ why, ¬ SourceFault readers tree d name why) :
    ∃ read, readSource readers tree d name = .ok read := by
  cases hr : readSource readers tree d name with
  | error why => exact absurd (readSource_eq_error_iff.1 hr) (h why)
  | ok read => exact ⟨read, rfl⟩

theorem not_fault_of_read {readers : Readers} {tree : Tree} {d : Path} {name : Text}
    {read : Mapping × Option Problem} (h : readSource readers tree d name = .ok read) (why : LoadFault) :
    ¬ SourceFault readers tree d name why := by
  rw [← readSource_eq_error_iff, h]
  exact nofun

/-- **When a load ends without a snapshot.** -/
theorem load_eq_error_iff {readers : Readers} {tree : Tree} {d : Path} {n : Nat} {why : LoadFault} :
    load readers tree d n = .error why ↔ LoadEnds readers tree d why := by
  constructor
  · intro h
    cases hs : readSource readers tree d snippetsName with
    | error first =>
      simp only [load, hs, bind, Except.bind] at h
      cases h
      exact .snippets (readSource_eq_error_iff.1 hs)
    | ok snippets =>
      cases hp : readSource readers tree d profilesName with
      | error second =>
        simp only [load, hs, hp, bind, Except.bind] at h
        cases h
        exact .profiles (not_fault_of_read hs) (readSource_eq_error_iff.1 hp)
      | ok profiles =>
        rw [load_of_read hs hp, combine] at h
        split at h
        next long =>
          cases h
          exact .key hs (not_fault_of_read hp) long
        next => cases h
  · intro h
    cases h with
    | snippets fault =>
      have hs := readSource_eq_error_iff.2 fault
      simp only [load, hs, bind, Except.bind]
    | profiles before fault =>
      obtain ⟨snippets, hs⟩ := exists_read_of_not_fault before
      have hp := readSource_eq_error_iff.2 fault
      simp only [load, hs, hp, bind, Except.bind]
    | key read before long =>
      obtain ⟨profiles, hp⟩ := exists_read_of_not_fault before
      rw [load_of_read read hp, combine, if_pos long]

end Shorthand.Extensions
