/-
How an update of the store ends. It takes the next generation before it looks at its
path, so a fault on the way leaves the counter raised and the snapshot of the directory
before it in place.

`update_outcome` says which faults there are, and that without one the snapshot is that of
the directory that the path names, or the defaults where it names none.
-/
import Shorthand.Proofs.Extensions.Loading
import Shorthand.Proofs.Extensions.Traffic

namespace Shorthand.Extensions

open Files Relation

/-! ## What stands in the way of an update -/

/-- What the text of a path stands for before its home directory is put in. -/
def written (path : Option Text) : Path := Path.ofText (Text.trim (path.getD []))

/-- What stops an update before it has a directory to read: nobody has the name behind the
tilde of its path, or the path is too long to look for. -/
inductive Refused (disk : Disk) (path : Option Text) : StoreFault → Prop
  | unknownUser {name rest} (tilde : written path = ⟨.relative, ('~' :: name) :: rest⟩) (named : name ≠ [])
      (nobody : disk.homes.lookup name = none) : Refused disk path (.unknownUser ⟨name⟩)
  | nameTooLong {p} (expanded : disk.expandHome (written path) = .ok p) (absolute : p.isAbsolute = true)
      (long : disk.tree.isTooLong p = true) : Refused disk path (.load (.nameTooLong p))

/-- All that stops an update that begins on `disk` and reads its directory from `tree`. -/
inductive Stopped (readers : Readers) (disk : Disk) (tree : Tree) (path : Option Text) : StoreFault → Prop
  | refused {why} (h : Refused disk path why) : Stopped readers disk tree path why
  | load {d why} (named : directory? disk path = some d) (ends : LoadEnds readers tree d why) :
      Stopped readers disk tree path (.load why)

theorem expandHome_eq_error_iff {disk : Disk} {p : Path} {who : UnknownUser} :
    disk.expandHome p = .error who ↔
      ∃ rest, p = ⟨.relative, ('~' :: who.name) :: rest⟩ ∧ who.name ≠ [] ∧
        disk.homes.lookup who.name = none := by
  obtain ⟨who⟩ := who
  rw [Disk.expandHome]
  split
  next name rest hroot hsegments =>
    obtain ⟨root, segments⟩ := p
    cases hroot
    cases hsegments
    cases name with
    | nil =>
      simp only [List.isEmpty_nil, if_true, reduceCtorEq, false_iff]
      rintro ⟨_, hp, hne, -⟩
      simp only [Files.Path.mk.injEq, List.cons.injEq, true_and] at hp
      exact hne hp.1.symm
    | cons c name =>
      simp only [List.isEmpty_cons, Bool.false_eq_true, if_false]
      cases hl : disk.homes.lookup (c :: name) with
      | some home =>
        simp only [reduceCtorEq, false_iff]
        rintro ⟨_, hp, -, hnobody⟩
        simp only [Files.Path.mk.injEq, List.cons.injEq, true_and] at hp
        rw [← hp.1, hl] at hnobody
        cases hnobody
      | none =>
        simp only [Except.error.injEq, UnknownUser.mk.injEq]
        constructor
        · rintro rfl
          exact ⟨rest, rfl, List.cons_ne_nil _ _, hl⟩
        · rintro ⟨_, hp, -, -⟩
          simp only [Files.Path.mk.injEq, List.cons.injEq, true_and] at hp
          exact hp.1
  next hother =>
    simp only [reduceCtorEq, false_iff]
    rintro ⟨rest, rfl, -, -⟩
    exact hother who rest rfl rfl

section Refused

variable {disk : Disk} {path : Option Text} {why : StoreFault}

theorem refused_of_error {who : UnknownUser} (h : disk.expandHome (written path) = .error who) :
    Refused disk path why ↔ .unknownUser who = why := by
  constructor
  · intro hrefused
    cases hrefused with
    | unknownUser tilde named nobody =>
      rw [expandHome_eq_error_iff.2 ⟨_, tilde, named, nobody⟩, Except.error.injEq] at h
      rw [h]
    | nameTooLong expanded absolute long =>
      rw [h] at expanded
      cases expanded
  · rintro rfl
    obtain ⟨rest, tilde, named, nobody⟩ := expandHome_eq_error_iff.1 h
    exact .unknownUser tilde named nobody

theorem refused_of_ok {p : Files.Path} (h : disk.expandHome (written path) = .ok p) :
    Refused disk path why ↔
      (p.isAbsolute && disk.tree.isTooLong p) = true ∧ .load (.nameTooLong p) = why := by
  rw [Bool.and_eq_true]
  constructor
  · intro hrefused
    cases hrefused with
    | unknownUser tilde named nobody =>
      rw [expandHome_eq_error_iff.2 ⟨_, tilde, named, nobody⟩] at h
      cases h
    | nameTooLong expanded absolute long =>
      rw [h, Except.ok.injEq] at expanded
      rw [expanded]
      exact ⟨⟨absolute, long⟩, rfl⟩
  · rintro ⟨⟨absolute, long⟩, rfl⟩
    exact .nameTooLong h absolute long

end Refused

namespace Store

/-- An update fails at once exactly where it is refused. -/
theorem start_eq_failed_iff {s : Store} {disk : Disk} {path : Option Text} {why : StoreFault} :
    (s.start disk path).1 = .failed why ↔ Refused disk path why := by
  by_cases hraw : (Text.trim (path.getD [])).isEmpty = true
  -- A blank text stands for a path with nothing in it.
  · have hblank : disk.expandHome (written path) = .ok ⟨.relative, []⟩ := by
      rw [written, List.isEmpty_iff.1 hraw]
      rfl
    rw [refused_of_ok hblank]
    simp only [start, if_pos hraw, reduceCtorEq, Files.Path.isAbsolute, bne_self_eq_false, Bool.false_and,
      Bool.false_eq_true, false_and]
  cases hd : disk.expandHome (Files.Path.ofText (Text.trim (path.getD []))) with
  | error who =>
    rw [refused_of_error hd]
    simp only [start, if_neg hraw, hd, Begun.failed.injEq]
  | ok d =>
    rw [refused_of_ok hd]
    by_cases hlong : (d.isAbsolute && disk.tree.isTooLong d) = true
    · simp only [start, if_neg hraw, hd, hlong, if_true, true_and, Begun.failed.injEq]
    · simp only [start, if_neg hraw, hd, hlong, Bool.false_eq_true, if_false, false_and, iff_false]
      by_cases hdir : (d.isAbsolute && disk.tree.isDirectory d) = true
      · simp only [hdir, if_true, reduceCtorEq, not_false_eq_true]
      · simp only [hdir, Bool.false_eq_true, if_false, reduceCtorEq, not_false_eq_true]

end Store

theorem stopped_iff {readers : Readers} {disk : Disk} {tree : Tree} {path : Option Text} {why : StoreFault} :
    Stopped readers disk tree path why ↔
      Refused disk path why ∨
      ∃ d fault, directory? disk path = some d ∧ why = .load fault ∧ LoadEnds readers tree d fault := by
  constructor
  · intro h
    cases h with
    | refused h => exact .inl h
    | load named ends => exact .inr ⟨_, _, named, rfl, ends⟩
  · rintro (h | ⟨d, fault, named, rfl, ends⟩)
    · exact .refused h
    · exact .load named ends

/-! ## Whether an update ends with a fault, and what it leaves -/

namespace Store

/-- An update ends with a fault exactly where something stops it, whatever happens to the
store and the files before it reads its directory. -/
theorem complete_eq_error_iff {readers : Readers} (s later : Store) {disk now : Disk} {path : Option Text}
    {why : StoreFault} :
    (later.complete readers now (s.start disk path).1).1 = .error why ↔
      Stopped readers disk now.tree path why := by
  rw [stopped_iff, ← @start_eq_failed_iff s]
  obtain ⟨d, hd, hs⟩ | ⟨hd, fault, hs⟩ | ⟨hd, log, hs⟩ := s.start_cases disk path
  · rw [hs, complete, finishFrom]
    simp only [reduceCtorEq, hd, Option.some.injEq, false_or, ← load_eq_error_iff (n := s.generation + 1)]
    cases hl : Extensions.load readers now.tree d (s.generation + 1) with
    | error fault =>
      simp only [Except.error.injEq]
      constructor
      · rintro rfl
        exact ⟨d, fault, rfl, rfl, hl⟩
      · rintro ⟨_, fault', rfl, rfl, hl'⟩
        rw [hl, Except.error.injEq] at hl'
        rw [hl']
    | ok loaded =>
      simp only [reduceCtorEq, false_iff]
      rintro ⟨_, fault, rfl, -, hl'⟩
      rw [hl] at hl'
      cases hl'
  · simp only [hs, complete, hd, Except.error.injEq, Begun.failed.injEq, reduceCtorEq, false_and,
      exists_false, or_false]
  · simp only [hs, complete, hd, reduceCtorEq, false_and, exists_false, or_false]

theorem update_eq_error_iff {readers : Readers} {s : Store} {disk : Disk} {path : Option Text}
    {why : StoreFault} :
    (s.update readers disk path).1 = .error why ↔ Stopped readers disk disk.tree path why :=
  complete_eq_error_iff s (s.start disk path).2.1

/-- All that an update with nothing in between can do. -/
theorem update_cases (readers : Readers) (s : Store) (disk : Disk) (path : Option Text)
    (h : s.snapshot.generation ≤ s.generation) :
    let ended := s.update readers disk path
    let next := { s with generation := s.generation + 1 }
    (∃ why, ended.1 = .error why ∧ ended.2.1 = next) ∨
    (ended.1 = .ok () ∧ directory? disk path = none ∧
      ended.2.1 = { next with snapshot := .builtin (s.generation + 1) }) ∨
    (∃ d loaded, ended.1 = .ok () ∧ directory? disk path = some d ∧
      load readers disk.tree d (s.generation + 1) = .ok loaded ∧
      ended.2.1 = { next with snapshot := loaded.1 }) := by
  intro ended next
  have hnext : next.snapshot.generation ≤ s.generation + 1 := Nat.le_succ_of_le h
  obtain ⟨d, hd, hs⟩ | ⟨hd, why, hs⟩ | ⟨hd, log, hs⟩ := s.start_cases disk path
  · simp only [ended, update, hs, complete, finishFrom]
    cases hl : Extensions.load readers disk.tree d (s.generation + 1) with
    | error why => exact .inl ⟨.load why, rfl, rfl⟩
    | ok loaded =>
      refine .inr (.inr ⟨d, loaded, rfl, hd, hl, ?_⟩)
      simp only [finish_fst]
      rw [commit_of_le (by rwa [(load_target hl).1])]
  · simp only [ended, update, hs, complete]
    exact .inl ⟨why, rfl, rfl⟩
  · simp only [ended, update, hs, complete]
    rw [commit_of_le hnext]
    exact .inr (.inl ⟨trivial, hd, rfl⟩)

end Store

theorem Traffic.Inv.snapshot_le {t : Traffic} (h : t.Inv) :
    t.store.snapshot.generation ≤ t.store.generation := by
  rw [h.snapshot, h.generation]
  exact h.numbered.latest_generation

namespace Store

/-- **How an update ends.** It fails exactly where something stops it, whatever runs in the
meantime. With nothing in between it always raises the counter by one. Where it fails, the
snapshot from before stays in place under the raised counter. Otherwise the store holds
what the directory brought that the path names, and where the path names none, the
defaults of the raised generation. -/
theorem update_outcome {readers : Readers} {t : Traffic} (ht : t.Reachable readers) (disk : Disk)
    (path : Option Text) :
    let s := t.store
    let ended := s.update readers disk path
    (∀ (later : Store) (now : Disk) (why : StoreFault),
      (later.complete readers now (s.start disk path).1).1 = .error why ↔
        Stopped readers disk now.tree path why) ∧
    ended.2.1.generation = s.generation + 1 ∧
    (∀ why, Stopped readers disk disk.tree path why →
      ended.1 = .error why ∧ ended.2.1.snapshot = s.snapshot) ∧
    ((∀ why, ¬ Stopped readers disk disk.tree path why) →
      ended.1 = .ok () ∧
      (directory? disk path = none → ended.2.1.snapshot = .builtin (s.generation + 1)) ∧
      ∀ d, directory? disk path = some d →
        ∃ problems, load readers disk.tree d (s.generation + 1) = .ok (ended.2.1.snapshot, problems)) := by
  intro s ended
  have unstopped : ended.1 = .ok () → ∀ why, ¬ Stopped readers disk disk.tree path why := by
    intro hok why hstop
    rw [show ended.1 = _ from update_eq_error_iff.2 hstop] at hok
    cases hok
  refine ⟨fun later now why => complete_eq_error_iff s later, ?_⟩
  obtain ⟨why, hwhy, hstore⟩ | ⟨hok, hd, hstore⟩ | ⟨d, loaded, hok, hd, hl, hstore⟩ :=
    s.update_cases readers disk path ht.inv.snapshot_le
  · refine ⟨by rw [hstore], fun why' hstop => ⟨update_eq_error_iff.2 hstop, by rw [hstore]⟩, fun hnone => ?_⟩
    exact absurd (update_eq_error_iff.1 hwhy) (hnone why)
  · refine ⟨by rw [hstore], fun why hstop => absurd hstop (unstopped hok why), fun _ => ⟨hok, ?_, ?_⟩⟩
    · exact fun _ => by rw [hstore]
    · rw [hd]
      exact nofun
  · refine ⟨by rw [hstore], fun why hstop => absurd hstop (unstopped hok why), fun _ => ⟨hok, ?_, ?_⟩⟩
    · rw [hd]
      exact nofun
    · intro d' hd'
      rw [hd, Option.some.injEq] at hd'
      rw [hstore, ← hd']
      exact ⟨loaded.2, hl⟩

theorem refused_nobody : Refused Traffic.plainDisk (some ['~', 'x']) (.unknownUser ⟨['x']⟩) :=
  @Refused.unknownUser Traffic.plainDisk _ ['x'] [] (by decide) (by decide) (by decide)

/-- A tilde with a name that nobody has: the update fails, and the snapshot of `/a` stays
in place under the second generation. -/
theorem update_outcome_unknownUser :
    ∃ t : Traffic, t.Reachable Readers.standard ∧ t.store.snapshot.path = some ⟨.single, [['a']]⟩ ∧
      let ended := t.store.update Readers.standard Traffic.plainDisk (some ['~', 'x'])
      ended.1 = .error (.unknownUser ⟨['x']⟩) ∧ ended.2.1.generation = t.store.generation + 1 ∧
      ended.2.1.snapshot = t.store.snapshot := by
  let a : Path := ⟨.single, [['a']]⟩
  let begun := (Traffic.init false true).start .request Traffic.plainDisk (some ['/', 'a'])
  have reading : ReflTransGen (Traffic.Step Readers.standard) (.init false true) begun :=
    .single (.start _ _ _)
  have ending := @Traffic.run_finish Readers.standard begun.store [] []
    ⟨.request, Traffic.plainDisk, some ['/', 'a'], .reading ⟨a, 1⟩⟩ _ _ Traffic.plainDisk.tree rfl
    (@load_of_missing Traffic.plainDisk.tree a Readers.standard rfl rfl 1)
  have reached : Traffic.Reachable Readers.standard _ :=
    ⟨false, true, reading.trans (ending.lift id fun _ _ => .advance)⟩
  obtain ⟨-, raised, fails, -⟩ := update_outcome reached Traffic.plainDisk (some ['~', 'x'])
  obtain ⟨failed, kept⟩ := fails _ (.refused refused_nobody)
  exact ⟨_, reached, rfl, failed, raised, kept⟩

/-- Not every update ends without a fault, nor does every path that names no directory lead
back to the defaults. -/
theorem update_not_always :
    ¬ ∀ (t : Traffic) (disk : Disk) (path : Option Text), t.Reachable Readers.standard →
      (t.store.update Readers.standard disk path).1 = .ok () ∧
      (directory? disk path = none →
        (t.store.update Readers.standard disk path).2.1.snapshot = .builtin (t.store.generation + 1)) := by
  intro claim
  obtain ⟨ends, -⟩ := claim (.init false true) Traffic.plainDisk (some ['~', 'x']) ⟨false, true, .refl⟩
  rw [update_eq_error_iff.2 (.refused refused_nobody)] at ends
  cases ends

end Store

end Shorthand.Extensions
