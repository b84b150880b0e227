/-
Updates of one store that overlap: any number of them begin, read their directories and
end, each step of one between any steps of the others, while the files change.

`Traffic.Inv` is what every step keeps: the updates are numbered in the order in which
they began, and the snapshot is the one built by the last of those that have ended.
-/
import Mathlib.Logic.Relation
import Shorthand.Extensions.Store

namespace Shorthand.Extensions

open Files Relation

/-! ## One update -/

/-- The directory that a path names: trimmed and with its home directory expanded, it is
an absolute one that exists. -/
def directory? (disk : Disk) (path : Option Text) : Option Path :=
  let raw := Text.trim (path.getD [])
  if raw.isEmpty then none
  else match disk.expandHome (Path.ofText raw) with
    | .error _ => none
    | .ok directory =>
      if directory.isAbsolute && disk.tree.isDirectory directory then some directory else none

theorem isDirectory_of_isTooLong {tree : Tree} {p : Path} (h : tree.isTooLong p = true) :
    tree.isDirectory p = false := by
  rw [Tree.isTooLong] at h
  rw [Tree.isDirectory]
  split at h
  next hf => rw [hf]
  next => cases h

namespace Store

/-- A snapshot is taken in unless a newer one is there. -/
theorem commit_fst (s : Store) (snapshot : Snapshot) :
    (s.commit snapshot).1 =
      if snapshot.generation < s.snapshot.generation then s else { s with snapshot := snapshot } := by
  rw [commit]
  split <;> rfl

theorem commit_of_le {s : Store} {snapshot : Snapshot}
    (h : s.snapshot.generation ≤ snapshot.generation) :
    (s.commit snapshot).1 = { s with snapshot := snapshot } := by
  rw [commit_fst, if_neg (by omega)]

theorem commit_of_lt {s : Store} {snapshot : Snapshot}
    (h : snapshot.generation < s.snapshot.generation) : (s.commit snapshot).1 = s := by
  rw [commit_fst, if_pos h]

@[simp] theorem commit_generation (s : Store) (snapshot : Snapshot) :
    (s.commit snapshot).1.generation = s.generation := by
  rw [commit_fst]
  split <;> rfl

theorem generation_le_commit (s : Store) (snapshot : Snapshot) :
    s.snapshot.generation ≤ (s.commit snapshot).1.snapshot.generation := by
  rw [commit_fst]
  split
  · exact Nat.le_refl _
  · next h => exact Nat.le_of_not_lt h

theorem finish_fst (s : Store) (load : Load) (loaded : Snapshot × List Problem) :
    (s.finish load loaded).1 = (s.commit loaded.1).1 := rfl

/-- **All that the beginning of an update can do.** It takes the next generation; then it
waits for the directory that its path names, fails, or goes back to the defaults. -/
theorem start_cases (s : Store) (disk : Disk) (path : Option Text) :
    let next := { s with generation := s.generation + 1 }
    (∃ d, directory? disk path = some d ∧
      s.start disk path = (.reading ⟨d, s.generation + 1⟩, next, [])) ∨
    (directory? disk path = none ∧ ∃ why, s.start disk path = (.failed why, next, [])) ∨
    (directory? disk path = none ∧
      ∃ log, s.start disk path = (.settled, (next.commit (.builtin (s.generation + 1))).1, log)) := by
  intro next
  by_cases hraw : (Text.trim (path.getD [])).isEmpty = true
  · simp only [start, directory?, if_pos hraw]
    exact .inr (.inr ⟨trivial, _, rfl⟩)
  simp only [start, directory?, if_neg hraw]
  cases hd : disk.expandHome (Path.ofText (Text.trim (path.getD []))) with
  | error who => exact .inr (.inl ⟨rfl, _, rfl⟩)
  | ok d =>
    by_cases hlong : (d.isAbsolute && disk.tree.isTooLong d) = true
    · have hdir : disk.tree.isDirectory d = false := by
        rw [Bool.and_eq_true] at hlong
        exact isDirectory_of_isTooLong hlong.2
      exact .inr (.inl ⟨by simp [hdir], .load (.nameTooLong d), by simp only [if_pos hlong, next]⟩)
    by_cases hdir : (d.isAbsolute && disk.tree.isDirectory d) = true
    · simp only [if_neg hlong, if_pos hdir]
      exact .inl ⟨d, rfl, rfl⟩
    · simp only [if_neg hlong, if_neg hdir]
      exact .inr (.inr ⟨trivial, _, rfl⟩)

/-- A directory that is there is waited for. -/
theorem start_of_directory (s : Store) {disk : Disk} {path : Option Text} {d : Path}
    (h : directory? disk path = some d) :
    s.start disk path =
      (.reading ⟨d, s.generation + 1⟩, { s with generation := s.generation + 1 }, []) := by
  obtain ⟨d', hd, hs⟩ | ⟨hd, -⟩ | ⟨hd, -⟩ := s.start_cases disk path
  · rw [h, Option.some.injEq] at hd
    rw [hs, hd]
  · rw [h] at hd
    cases hd
  · rw [h] at hd
    cases hd

theorem start_of_settled (s : Store) {disk : Disk} {path : Option Text}
    (h : (s.start disk path).1 = .settled) :
    ∃ log, s.start disk path =
      (.settled, ({ s with generation := s.generation + 1 }.commit (.builtin (s.generation + 1))).1, log) := by
  obtain ⟨d, -, hs⟩ | ⟨-, why, hs⟩ | ⟨-, hs⟩ := s.start_cases disk path
  · rw [hs] at h
    cases h
  · rw [hs] at h
    cases h
  · exact hs

theorem start_generation (s : Store) (disk : Disk) (path : Option Text) :
    (s.start disk path).2.1.generation = s.generation + 1 := by
  obtain ⟨d, -, h⟩ | ⟨-, why, h⟩ | ⟨-, log, h⟩ := s.start_cases disk path <;> simp [h]

end Store

/-- A load builds the snapshot of its directory and its generation. -/
theorem load_target {readers : Readers} {tree : Tree} {directory : Path} {generation : Nat}
    {loaded : Snapshot × List Problem} (h : load readers tree directory generation = .ok loaded) :
    loaded.1.generation = generation ∧ loaded.1.path = some directory := by
  simp only [load, bind, Except.bind] at h
  split at h
  · cases h
  split at h
  · cases h
  split at h
  · cases h
  · cases h
    exact ⟨rfl, rfl⟩

/-- Without its sources a directory brings nothing. -/
theorem load_of_missing {tree : Tree} {d : Path} (readers : Readers)
    (hs : sourceFile? tree d snippetsName = .ok none) (hp : sourceFile? tree d profilesName = .ok none)
    (n : Nat) : load readers tree d n = .ok (snapshotOf n d {} {}, []) := by
  simp only [load, readSource, hs, hp, bind, Except.bind]
  rfl

/-- What asked for an update: a request that names a path, or a saved file. -/
inductive Cause where
  | request
  | save
  deriving DecidableEq, Repr

/-- How far an update has come. -/
inductive Progress where
  | reading (load : Load)
  /-- The directory was read; what it brought is not taken in yet. -/
  | read (load : Load) (loaded : Snapshot × List Problem)
  | finished (built : Snapshot)
  | failed (why : StoreFault)

namespace Progress

/-- The progress of an update of a generation that has just begun. -/
def ofBegun (generation : Nat) : Begun → Progress
  | .settled => .finished (.builtin generation)
  | .reading load => .reading load
  | .failed why => .failed why

def ofLoad (load : Load) : Except LoadFault (Snapshot × List Problem) → Progress
  | .error why => .failed (.load why)
  | .ok loaded => .read load loaded

/-- The generation and the path of the snapshot that is built; a failed update builds none. -/
def target? : Progress → Option (Nat × Option Path)
  | .reading load => some (load.generation, some load.directory)
  | .read _ (snapshot, _) => some (snapshot.generation, snapshot.path)
  | .finished built => some (built.generation, built.path)
  | .failed _ => none

def built? : Progress → Option Snapshot
  | .finished built => some built
  | _ => none

end Progress

/-- An update that began when the disk was `disk`. -/
structure Update where
  cause : Cause
  disk : Disk
  path : Option Text
  progress : Progress

namespace Update

def directory (u : Update) : Option Path := directory? u.disk u.path

/-- The update when it has come farther. -/
def reached (u : Update) (progress : Progress) : Update := { u with progress := progress }

def isFailed (u : Update) : Bool := u.progress.target?.isNone

/-- The update has ended without a fault. -/
def Finished (u : Update) : Prop := ∃ built, u.progress = .finished built

/-- The update waits for its directory, or to take in what it read there. -/
def InFlight (u : Update) : Prop := u.progress.built? = none ∧ u.isFailed = false

end Update

/-! ## A store and its updates -/

/-- A store with all the updates of it that have begun, the last one first. -/
structure Traffic where
  store : Store
  updates : List Update

namespace Traffic

def init (verbose attached : Bool) : Traffic := ⟨.init verbose attached, []⟩

def start (t : Traffic) (cause : Cause) (disk : Disk) (path : Option Text) : Traffic :=
  let (begun, store, _) := t.store.start disk path
  ⟨store, ⟨cause, disk, path, .ofBegun store.generation begun⟩ :: t.updates⟩

/-- Some update goes on: it reads its directory, from the files as they are then, or takes
in what it read. -/
inductive Advance (readers : Readers) : Traffic → Traffic → Prop
  | read {store before u after load} (tree : Tree) (h : u.progress = .reading load) :
      Advance readers ⟨store, before ++ u :: after⟩ ⟨store, before ++ u.reached (.ofLoad load
        (Extensions.load readers tree load.directory load.generation)) :: after⟩
  | commit {store before u after load loaded} (h : u.progress = .read load loaded) :
      Advance readers ⟨store, before ++ u :: after⟩
        ⟨(store.finish load loaded).1, before ++ u.reached (.finished loaded.1) :: after⟩

inductive Step (readers : Readers) : Traffic → Traffic → Prop
  | start {t} (cause : Cause) (disk : Disk) (path : Option Text) :
      Step readers t (t.start cause disk path)
  | advance {t t'} (h : Advance readers t t') : Step readers t t'

/-- The updates are numbered from one on in the order in which they began, and each builds
a snapshot of its number, of the directory that its path named. -/
def Numbered : List Update → Prop
  | [] => True
  | u :: older =>
    (∀ target ∈ u.progress.target?, target = (older.length + 1, u.directory)) ∧ Numbered older

/-- The snapshot built by the last of the updates that have ended, the defaults if there
is none. -/
def latest (updates : List Update) : Snapshot :=
  (updates.findSome? (·.progress.built?)).getD (.builtin 0)

/-- What every step keeps. -/
structure Inv (t : Traffic) : Prop where
  numbered : Numbered t.updates
  generation : t.store.generation = t.updates.length
  snapshot : t.store.snapshot = latest t.updates

/-! ## Numbers of updates -/

theorem target?_of_built? {p : Progress} {built : Snapshot} (h : p.built? = some built) :
    p.target? = some (built.generation, built.path) := by
  cases p with
  | finished b => cases h; rfl
  | reading load => cases h
  | read load loaded => cases h
  | failed why => cases h

theorem Numbered.rest (before : List Update) {updates : List Update} (h : Numbered (before ++ updates)) :
    Numbered updates := by
  induction before with
  | nil => exact h
  | cons u before ih => exact ih h.2

/-- One update may come farther without a change of its target. -/
theorem Numbered.reached {before after : List Update} {u : Update} {progress : Progress}
    (h : Numbered (before ++ u :: after)) (hp : ∀ target ∈ progress.target?, target ∈ u.progress.target?) :
    Numbered (before ++ u.reached progress :: after) := by
  induction before with
  | nil => exact ⟨fun target ht => h.1 target (hp target ht), h.2⟩
  | cons v before ih =>
    refine ⟨fun target ht => ?_, ih h.2⟩
    have := h.1 target ht
    simpa using this

/-- What has been built by one of the updates `before` is newer than what the others
build. -/
theorem Numbered.built_generation {before updates : List Update} {built : Snapshot}
    (h : Numbered (before ++ updates)) (hb : before.findSome? (·.progress.built?) = some built) :
    updates.length < built.generation ∧ built.generation ≤ (before ++ updates).length := by
  induction before with
  | nil => cases hb
  | cons u before ih =>
    rw [List.findSome?_cons] at hb
    split at hb
    next b hu =>
      cases hb
      have ht := h.1 _ (target?_of_built? hu)
      rw [Prod.mk.injEq] at ht
      simp only [List.append_eq, List.cons_append, List.length_cons, List.length_append] at ht ⊢
      omega
    next hu =>
      have := ih h.2 hb
      exact ⟨this.1, Nat.le_succ_of_le this.2⟩

theorem Numbered.latest_generation {updates : List Update} (h : Numbered updates) :
    (latest updates).generation ≤ updates.length := by
  rw [latest]
  cases hb : updates.findSome? (·.progress.built?) with
  | none => exact Nat.zero_le _
  | some built =>
    have hn : Numbered (updates ++ []) := by rwa [List.append_nil]
    simpa using (hn.built_generation hb).2

theorem latest_cons_of_none {u : Update} {older : List Update} (h : u.progress.built? = none) :
    latest (u :: older) = latest older := by
  rw [latest, List.findSome?_cons, h, latest]

theorem latest_cons_of_some {u : Update} {older : List Update} {built : Snapshot}
    (h : u.progress.built? = some built) : latest (u :: older) = built := by
  rw [latest, List.findSome?_cons, h, Option.getD_some]

/-- The last update that has ended is one of those `before`, or one of the others. -/
theorem latest_append (before : List Update) :
    (∃ built, before.findSome? (·.progress.built?) = some built ∧
      ∀ updates, latest (before ++ updates) = built) ∨
    ∀ updates, latest (before ++ updates) = latest updates := by
  cases hb : before.findSome? (·.progress.built?) with
  | none => exact .inr fun updates => by rw [latest, List.findSome?_append, hb, Option.none_or, latest]
  | some built =>
    refine .inl ⟨built, rfl, fun updates => ?_⟩
    rw [latest, List.findSome?_append, hb, Option.some_or, Option.getD_some]

/-! ## What every step keeps -/

theorem inv_init (verbose attached : Bool) : Inv (init verbose attached) := ⟨trivial, rfl, rfl⟩

theorem Inv.start {t : Traffic} (h : Inv t) (cause : Cause) (disk : Disk) (path : Option Text) :
    Inv (t.start cause disk path) := by
  have hle := h.numbered.latest_generation
  rw [← h.snapshot, ← h.generation] at hle
  obtain ⟨d, hd, hs⟩ | ⟨-, why, hs⟩ | ⟨hd, log, hs⟩ := t.store.start_cases disk path
  · simp only [Traffic.start, hs]
    refine ⟨⟨fun target ht => ?_, h.numbered⟩, by simp [h.generation], ?_⟩
    · cases ht
      rw [← h.generation, Update.directory, hd]
    · rw [latest_cons_of_none rfl]
      exact h.snapshot
  · simp only [Traffic.start, hs]
    refine ⟨⟨fun target ht => ?_, h.numbered⟩, by simp [h.generation], ?_⟩
    · cases ht
    · rw [latest_cons_of_none rfl]
      exact h.snapshot
  · simp only [Traffic.start, hs]
    rw [Store.commit_of_le (Nat.le_succ_of_le hle)]
    refine ⟨⟨fun target ht => ?_, h.numbered⟩, by simp [h.generation], ?_⟩
    · cases ht
      rw [← h.generation, Update.directory, hd]
      rfl
    · rw [latest_cons_of_some rfl]

theorem Inv.advance {readers : Readers} {t t' : Traffic} (h : Inv t) (ha : Advance readers t t') :
    Inv t' := by
  obtain ⟨hn, hg, hs⟩ := h
  cases ha with
  | @read store before u after load tree hu =>
    refine ⟨hn.reached ?_, by simpa using hg, ?_⟩
    · intro target ht
      rw [hu]
      cases hl : Extensions.load readers tree load.directory load.generation with
      | error why => rw [hl] at ht; cases ht
      | ok loaded =>
        obtain ⟨hgen, hpath⟩ := load_target hl
        rw [hl] at ht
        cases ht
        rw [hgen, hpath]
        rfl
    · have hnone : ∀ r, (u.reached (.ofLoad load r)).progress.built? = none := fun r => by cases r <;> rfl
      have hnone' : u.progress.built? = none := by rw [hu]; rfl
      rcases latest_append before with ⟨built, -, hb⟩ | hb
      · rw [hb] at hs ⊢
        exact hs
      · rw [hb, latest_cons_of_none hnone'] at hs
        rw [hb, latest_cons_of_none (hnone _)]
        exact hs
  | @commit store before u after load loaded hu =>
    have hnone : u.progress.built? = none := by rw [hu]; rfl
    have htarget := (hn.rest before).1 (loaded.1.generation, loaded.1.path) (by rw [hu]; rfl)
    rw [Prod.mk.injEq] at htarget
    refine ⟨hn.reached ?_, by simpa [Store.finish_fst] using hg, ?_⟩
    · intro target ht
      rw [hu]
      exact ht
    rw [Store.finish_fst]
    rcases latest_append before with ⟨built, hfind, hb⟩ | hb
    -- An update that began later has ended: what was read is not taken in.
    · have hlt := (hn.built_generation hfind).1
      rw [hb] at hs ⊢
      rw [Store.commit_of_lt, hs]
      rw [hs, htarget.1]
      exact hlt
    -- Otherwise it is newer than all that has been taken in.
    · have hle := (hn.rest before).2.latest_generation
      rw [hb, latest_cons_of_none hnone] at hs
      rw [hb, latest_cons_of_some rfl, Store.commit_of_le]
      rw [hs, htarget.1]
      omega

theorem Inv.step {readers : Readers} {t t' : Traffic} (h : Inv t) (hs : Step readers t t') : Inv t' := by
  cases hs with
  | start cause disk path => exact h.start cause disk path
  | advance ha => exact h.advance ha

theorem Step.generation_le {readers : Readers} {t t' : Traffic} (h : Step readers t t') :
    t.store.snapshot.generation ≤ t'.store.snapshot.generation := by
  cases h with
  | start cause disk path =>
    obtain ⟨d, -, hs⟩ | ⟨-, why, hs⟩ | ⟨-, log, hs⟩ := t.store.start_cases disk path
    · simp only [Traffic.start, hs]
      exact Nat.le_refl _
    · simp only [Traffic.start, hs]
      exact Nat.le_refl _
    · simp only [Traffic.start, hs]
      exact Store.generation_le_commit { t.store with generation := t.store.generation + 1 } _
  | advance ha =>
    cases ha with
    | read tree hu => exact Nat.le_refl _
    | commit hu => exact Store.generation_le_commit _ _

/-! ## Whole runs -/

/-- What a run leads to that begins with an empty store. -/
def Reachable (readers : Readers) (t : Traffic) : Prop :=
  ∃ verbose attached, ReflTransGen (Step readers) (init verbose attached) t

theorem Reachable.inv {readers : Readers} {t : Traffic} (h : Reachable readers t) : Inv t := by
  obtain ⟨verbose, attached, h⟩ := h
  induction h with
  | refl => exact inv_init verbose attached
  | tail _ hs ih => exact ih.step hs

theorem generation_le_of_run {readers : Readers} {t t' : Traffic} (h : ReflTransGen (Step readers) t t') :
    t.store.snapshot.generation ≤ t'.store.snapshot.generation := by
  induction h with
  | refl => exact Nat.le_refl _
  | tail _ hs ih => exact Nat.le_trans ih hs.generation_le

/-! ## Updates with nothing in between -/

/-- A directory that can be read is read, and what it brought is taken in. -/
theorem run_finish {readers : Readers} {store : Store} {before after : List Update} {u : Update}
    {load : Load} {loaded : Snapshot × List Problem} (tree : Tree) (hu : u.progress = .reading load)
    (hl : Extensions.load readers tree load.directory load.generation = .ok loaded) :
    ReflTransGen (Advance readers) ⟨store, before ++ u :: after⟩
      ⟨(store.commit loaded.1).1, before ++ u.reached (.finished loaded.1) :: after⟩ := by
  have read := @Advance.read readers store before u after load tree hu
  rw [hl] at read
  have commit := @Advance.commit readers store before (u.reached (.read load loaded)) after load loaded rfl
  exact (ReflTransGen.single read).tail commit

/-- What is left to do of an update leads to where its steps lead. -/
theorem run_complete {readers : Readers} {store : Store} {before after : List Update} {u : Update}
    {generation : Nat} {begun : Begun} (disk : Disk) (hu : u.progress = .ofBegun generation begun) :
    ∃ u', ReflTransGen (Advance readers) ⟨store, before ++ u :: after⟩
      ⟨(store.complete readers disk begun).2.1, before ++ u' :: after⟩ := by
  cases begun with
  | settled => exact ⟨u, .refl⟩
  | failed why => exact ⟨u, .refl⟩
  | reading load =>
    rw [Store.complete, Store.finishFrom]
    cases hl : Extensions.load readers disk.tree load.directory load.generation with
    | error why =>
      have read := @Advance.read readers store before u after load disk.tree hu
      exact ⟨_, .single read⟩
    | ok loaded => exact ⟨_, run_finish disk.tree hu hl⟩

/-- An update with nothing in between is a run. -/
theorem run_update (readers : Readers) (t : Traffic) (cause : Cause) (disk : Disk) (path : Option Text) :
    ∃ updates, ReflTransGen (Step readers) t ⟨(t.store.update readers disk path).2.1, updates⟩ := by
  obtain ⟨u, hrun⟩ := @run_complete readers (t.start cause disk path).store [] t.updates
    ⟨cause, disk, path, _⟩ _ (t.store.start disk path).1 disk rfl
  refine ⟨_, .head (.start cause disk path) (hrun.lift id fun _ _ => .advance)⟩

/-! ## The last update -/

/-- **The update that was started last decides.** Whatever updates begin in whatever
order, and in whatever order they end, the snapshot is never of a later generation than
the counter and never gives way to one of an earlier generation. Once all of them have
ended without a fault it is the one that the last of them built, and its generation is
that of the counter. -/
theorem last_started_decides {readers : Readers} {t : Traffic} (h : Reachable readers t) :
    t.store.generation = t.updates.length ∧
    t.store.snapshot.generation ≤ t.store.generation ∧
    (∀ t', ReflTransGen (Step readers) t t' →
      t.store.snapshot.generation ≤ t'.store.snapshot.generation) ∧
    ((∀ u ∈ t.updates, u.Finished) →
      t.store.snapshot.generation = t.store.generation ∧
      ∀ last older, t.updates = last :: older → last.progress = .finished t.store.snapshot) := by
  obtain ⟨hn, hg, hs⟩ := h.inv
  refine ⟨hg, ?_, fun t' ht => generation_le_of_run ht, fun hall => ?_⟩
  · rw [hs, hg]
    exact hn.latest_generation
  cases hu : t.updates with
  | nil =>
    rw [hu] at hs hg
    refine ⟨?_, by simp⟩
    rw [hs, hg]
    rfl
  | cons last older =>
    rw [hu] at hn hs hg
    obtain ⟨built, hb⟩ := hall last (by simp [hu])
    have hbuilt : last.progress.built? = some built := by rw [hb]; rfl
    have htarget := hn.1 _ (target?_of_built? hbuilt)
    rw [Prod.mk.injEq] at htarget
    rw [latest_cons_of_some hbuilt] at hs
    refine ⟨?_, ?_⟩
    · rw [hs, hg, htarget.1, List.length_cons]
    · rintro _ _ ⟨⟩
      rw [hb, hs]

/-- A disk with the directories `/a` and `/b` and nothing in them. -/
def plainDisk : Disk where
  tree := ⟨.ofList [([['a']], .directory), ([['b']], .directory)]⟩
  home := ⟨.single, []⟩
  homes := []

/-- The load of `/a` begins first and ends last; the snapshot is that of `/b`. -/
theorem last_started_decides_overtaken :
    ∃ t : Traffic, Reachable Readers.standard t ∧ (∀ u ∈ t.updates, u.Finished) ∧
      t.store.snapshot.path = some ⟨.single, [['b']]⟩ ∧
      t.store.snapshot.generation = t.store.generation := by
  let readers := Readers.standard
  let t₁ := (init false true).start .request plainDisk (some ['/', 'a'])
  let t₂ := t₁.start .request plainDisk (some ['/', 'b'])
  let a : Path := ⟨.single, [['a']]⟩
  let b : Path := ⟨.single, [['b']]⟩
  let u₁ : Update := ⟨.request, plainDisk, some ['/', 'a'], .reading ⟨a, 1⟩⟩
  let u₂ : Update := ⟨.request, plainDisk, some ['/', 'b'], .reading ⟨b, 2⟩⟩
  let brought₁ := snapshotOf 1 a {} {}
  let brought₂ := snapshotOf 2 b {} {}
  have begin₂ : ReflTransGen (Step readers) (init false true) t₂ :=
    (ReflTransGen.single (.start _ _ _)).tail (.start _ _ _)
  have end₂ := @run_finish readers t₂.store [] [u₁] u₂ _ _ plainDisk.tree rfl
    (@load_of_missing plainDisk.tree b readers rfl rfl 2)
  have end₁ := @run_finish readers { t₂.store with snapshot := brought₂ } [u₂.reached (.finished brought₂)] []
    u₁ _ _ plainDisk.tree rfl (@load_of_missing plainDisk.tree a readers rfl rfl 1)
  have reached : Reachable readers _ :=
    ⟨false, true, begin₂.trans ((end₂.trans end₁).lift id fun _ _ => .advance)⟩
  have ended : ∀ u ∈ [u₂.reached (.finished brought₂), u₁.reached (.finished brought₁)], u.Finished := by
    intro u hu
    rcases List.mem_cons.1 hu with rfl | hu
    · exact ⟨brought₂, rfl⟩
    · obtain rfl := List.mem_singleton.1 hu
      exact ⟨brought₁, rfl⟩
  exact ⟨_, reached, ended, rfl, ((last_started_decides reached).2.2.2 ended).1⟩

end Traffic

end Shorthand.Extensions
