/-
A directory of extensions that is read again whenever one of its sources is saved. The
sources are written and saved while loads are in flight, each load reads its two sources
at moments of its own, and loads are taken in in any order.

`Watch.Inv` is what every step keeps: the load that began last has read nothing that is
out of date by now, but for what is still to be saved and what was missed. So
`fresh_unless_missed`: in the end the snapshot is what the directory holds, unless a file
was saved before any load was taken in and after the first one had read it.
-/
import Mathlib.Data.List.Nodup
import Shorthand.Proofs.Extensions.Outcome
import Shorthand.Proofs.Files.PathText
import Shorthand.Proofs.Files.Write
import Shorthand.Proofs.Server.Reload

namespace Shorthand.Server

open Data Extensions Files Relation

/-- The two sources of a directory. -/
inductive SourceKind where
  | snippets | profiles
  deriving DecidableEq, Repr

namespace SourceKind

def name : SourceKind → Text
  | .snippets => snippetsName
  | .profiles => profilesName

/-- The file that the source is written to. -/
def file (source : SourceKind) : Text := source.name ++ ".json".toList

end SourceKind

/-- How far a load has come. -/
inductive Stage where
  | begun
  /-- The snippets were read, the profiles were not. -/
  | halfway (snippets : Mapping × Option Problem)
  | read (loaded : Snapshot × List Problem)

/-- A load in flight. -/
structure Flight where
  load : Load
  stage : Stage

namespace Flight

def ofBegun : Begun → List Flight
  | .reading load => [⟨load, .begun⟩]
  | .settled | .failed _ => []

/-- The load when it has read its next source; there is none when it fails. -/
def advance? (readers : Readers) (tree : Tree) (f : Flight) : Option Flight :=
  match f.stage with
  | .begun => match readSource readers tree f.load.directory snippetsName with
    | .error _ => none
    | .ok snippets => some ⟨f.load, .halfway snippets⟩
  | .halfway snippets => match readSource readers tree f.load.directory profilesName with
    | .error _ => none
    | .ok profiles => match combine f.load.directory f.load.generation snippets profiles with
      | .error _ => none
      | .ok loaded => some ⟨f.load, .read loaded⟩
  | .read _ => some f

/-- Whether the load has still to read a source. -/
def awaits (f : Flight) (source : SourceKind) : Bool :=
  match f.stage with
  | .begun => true
  | .halfway _ => source == .profiles
  | .read _ => false

end Flight

/-- The URI names the file. -/
def Names (uri : Text) (file : Path) : Prop :=
  ∃ (parts : Uri) (text : Text), Uri.ofText uri = .ok parts ∧ parts.filePath? = some text ∧ text ≠ [] ∧
    Path.ofText text = file

/-- A store whose directory is written to, with the loads in flight, the last one first. -/
structure Watch where
  store : Store
  disk : Disk
  flights : List Flight
  /-- The sources that were written and have not been saved since. -/
  unsaved : List SourceKind
  /-- The sources whose last save began no load and came too late for one in flight. -/
  missed : List SourceKind

namespace Watch

/-- A path is configured for a store. -/
def configured (store : Store) (disk : Disk) (path : Option Text) : Watch :=
  let (begun, store, _) := store.start disk path
  ⟨store, disk, Flight.ofBegun begun, [], []⟩

/-- A source of the directory `d` is written. -/
def write (w : Watch) (d : Path) (source : SourceKind) (content : Text.Bytes) : Watch :=
  { w with
    disk := { w.disk with tree := w.disk.tree.write (d.child source.file) content }
    unsaved := source :: w.unsaved }

/-- A source is saved, and the hook is told so under its URI. -/
def save (w : Watch) (source : SourceKind) (uri : Text) : Watch :=
  let (begun, store, _) := w.store.startSaved w.disk uri
  { w with
    store := store
    flights := Flight.ofBegun begun ++ w.flights
    unsaved := w.unsaved.filter (· != source)
    missed :=
      if store.generation ≠ w.store.generation then []
      else if w.flights.any (·.awaits source) then w.missed
      else source :: w.missed }

/-- The steps, in whatever order: a source of `d` is written, it is saved, a load reads its
next source or fails over it, and a load that has read both is taken in. -/
inductive Step (readers : Readers) (d : Path) : Watch → Watch → Prop
  | write {w} (source : SourceKind) (content : Text.Bytes) : Step readers d w (w.write d source content)
  | save {w} {source : SourceKind} {uri : Text} (h : Names uri (d.child source.file)) :
      Step readers d w (w.save source uri)
  | read {store disk before f after unsaved missed} :
      Step readers d ⟨store, disk, before ++ f :: after, unsaved, missed⟩
        ⟨store, disk, before ++ ((f.advance? readers disk.tree).toList ++ after), unsaved, missed⟩
  | commit {store disk before load loaded after unsaved missed} :
      Step readers d ⟨store, disk, before ++ ⟨load, .read loaded⟩ :: after, unsaved, missed⟩
        ⟨(store.finish load loaded).1, disk, before ++ after, unsaved, missed⟩

/-- What a run leads to in which a path is configured for an empty store, once. -/
def Reachable (readers : Readers) (disk : Disk) (path : Option Text) (d : Path) (w : Watch) : Prop :=
  ∃ verbose attached, ReflTransGen (Step readers d) (configured (.init verbose attached) disk path) w

/-- The snapshot is what the directory holds. -/
def Fresh (readers : Readers) (d : Path) (w : Watch) : Prop :=
  ∀ loaded, Extensions.load readers w.disk.tree d w.store.snapshot.generation = .ok loaded →
    w.store.snapshot = loaded.1

/-- What was read of a source may be out of date. -/
def Stale (w : Watch) (source : SourceKind) : Prop := source ∈ w.unsaved ∨ source ∈ w.missed

end Watch

/-- A load of the directory `d` that is not of a later generation than `latest`. -/
structure Flight.Sound (d : Path) (latest : Nat) (f : Flight) : Prop where
  directory : f.load.directory = d
  generation : f.load.generation ≤ latest
  loaded : ∀ loaded, f.stage = .read loaded →
    loaded.1.generation = f.load.generation ∧ loaded.1.path = some d

/-- What a load has read is what the tree holds, unless it is stale. -/
def Flight.Sees (readers : Readers) (tree : Tree) (stale : SourceKind → Prop) (f : Flight) : Prop :=
  match f.stage with
  | .begun => True
  | .halfway snippets =>
    readSource readers tree f.load.directory snippetsName = .ok snippets ∨ stale .snippets
  | .read loaded =>
    Extensions.load readers tree f.load.directory f.load.generation = .ok loaded ∨ ∃ source, stale source

/-- No load is awaited any more: the snapshot is what the directory holds, or it cannot be
loaded, or something is stale. -/
def Landed (readers : Readers) (d : Path) (tree : Tree) (stale : SourceKind → Prop) (s : Store) : Prop :=
  (s.snapshot.generation = s.generation ∧
    ∃ problems, Extensions.load readers tree d s.generation = .ok (s.snapshot, problems)) ∨
  (∃ why, Extensions.load readers tree d s.generation = .error why) ∨ ∃ source, stale source

/-- What every step keeps. -/
structure Watch.Inv (readers : Readers) (d : Path) (w : Watch) : Prop where
  directory : w.disk.tree.isDirectory d = true
  sound : ∀ f ∈ w.flights, f.Sound d w.store.generation
  distinct : (w.flights.map (·.load.generation)).Nodup
  behind : w.store.snapshot.generation ≤ w.store.generation
  /-- Until a load has been taken in, the first one is the only one. -/
  path : w.store.snapshot.path = some d ∨
    (w.store.snapshot.path = none ∧ ∀ f ∈ w.flights, f.load.generation = w.store.generation)
  awaited : ∀ f ∈ w.flights, f.load.generation = w.store.generation → f.Sees readers w.disk.tree w.Stale
  landed : (∀ f ∈ w.flights, f.load.generation ≠ w.store.generation) →
    Landed readers d w.disk.tree w.Stale w.store

/-! ## What a load sees -/

namespace Flight

variable {readers : Readers} {tree : Tree} {stale stale' : SourceKind → Prop} {f : Flight}

theorem Sees.mono (h : f.Sees readers tree stale) (hmono : ∀ source, stale source → stale' source) :
    f.Sees readers tree stale' := by
  rw [Sees] at h ⊢
  split at h
  · trivial
  · exact h.imp_right (hmono _)
  · exact h.imp_right fun ⟨source, hs⟩ => ⟨source, hmono source hs⟩

/-- What is written to a source makes out of date only what was read of that source. -/
theorem Sees.write {d : Path} {source : SourceKind} (h : f.Sees readers tree stale)
    (hf : f.load.directory = d) (hdots : dots ∉ d.segments) (hd : tree.isDirectory d = true)
    (content : Text.Bytes) (hmono : ∀ other, stale other → stale' other) (hsource : stale' source) :
    f.Sees readers (tree.write (d.child source.file) content) stale' := by
  have hname : source.file ≠ dots := by cases source <;> decide
  rw [Sees] at h ⊢
  split at h
  · trivial
  next snippets =>
    cases source with
    | snippets => exact .inr hsource
    | profiles =>
      have hsame : readSource readers (tree.write (d.child SourceKind.profiles.file) content) d snippetsName =
          readSource readers tree d snippetsName := by
        refine readSource_congr (fun file hfile => ?_) readers
        obtain ⟨e, he, rfl⟩ := List.mem_map.1 hfile
        have hother : ∀ e ∈ sourceExtensions,
            snippetsName ++ e ≠ dots ∧ snippetsName ++ e ≠ SourceKind.profiles.file := by decide
        exact Tree.find_write_of_ne hdots hname hd content (hother e he).1 (hother e he).2
      rw [hf] at h ⊢
      rw [hsame]
      exact h.imp_right (hmono _)
  · exact .inr ⟨source, hsource⟩

/-- A load that has still to read a source does not mind what becomes of it. -/
theorem Sees.of_awaits {source : SourceKind} (h : f.Sees readers tree stale) (ha : f.awaits source = true)
    (hmono : ∀ other, other ≠ source → stale other → stale' other) : f.Sees readers tree stale' := by
  rw [Sees] at h ⊢
  rw [awaits] at ha
  split at h
  · trivial
  next hstage =>
    rw [hstage] at ha
    obtain rfl := beq_iff_eq.1 ha
    exact h.imp_right (hmono _ (by decide))
  next hstage =>
    rw [hstage] at ha
    cases ha

/-- A load that reads on goes on to see what the tree holds. -/
theorem Sees.of_advance {g : Flight} (h : f.Sees readers tree stale) (hg : f.advance? readers tree = some g) :
    g.Sees readers tree stale := by
  obtain ⟨load, stage⟩ := f
  cases stage with
  | begun =>
    simp only [advance?] at hg
    split at hg
    · cases hg
    next snippets hs =>
      cases hg
      exact .inl hs
  | halfway snippets =>
    simp only [advance?] at hg
    split at hg
    · cases hg
    next profiles hp =>
      split at hg
      · cases hg
      next loaded hc =>
        cases hg
        exact h.imp (fun hs => (load_of_read hs hp _).trans hc) fun hstale => ⟨_, hstale⟩
  | read loaded =>
    cases hg
    exact h

/-- A load fails over what the tree holds, unless that is stale. -/
theorem Sees.of_fails (h : f.Sees readers tree stale) (hnone : f.advance? readers tree = none) :
    (∃ why, Extensions.load readers tree f.load.directory f.load.generation = .error why) ∨
      ∃ source, stale source := by
  obtain ⟨load, stage⟩ := f
  cases stage with
  | begun =>
    simp only [advance?] at hnone
    split at hnone
    next why hs => exact .inl ⟨why, load_eq_error_iff.2 (.snippets (readSource_eq_error_iff.1 hs))⟩
    next => cases hnone
  | halfway snippets =>
    rcases h with hs | hstale
    · simp only [advance?] at hnone
      split at hnone
      next why hp =>
        have fault := readSource_eq_error_iff.1 hp
        exact .inl ⟨why, load_eq_error_iff.2 (.profiles (not_fault_of_read hs) fault)⟩
      next profiles hp =>
        split at hnone
        next why hc => exact .inl ⟨why, (load_of_read hs hp _).trans hc⟩
        next => cases hnone
    · exact .inr ⟨_, hstale⟩
  | read loaded => cases hnone

theorem advance?_load {g : Flight} (hg : f.advance? readers tree = some g) : g.load = f.load := by
  rw [advance?] at hg
  split at hg
  · split at hg <;> cases hg
    rfl
  · split at hg
    · cases hg
    · split at hg <;> cases hg
      rfl
  · cases hg
    rfl

theorem Sound.advance {d : Path} {latest : Nat} {g : Flight} (h : f.Sound d latest)
    (hg : f.advance? readers tree = some g) : g.Sound d latest := by
  obtain ⟨hdirectory, hgeneration, hloaded⟩ := h
  have hload := advance?_load hg
  refine ⟨by rw [hload, hdirectory], by rw [hload]; exact hgeneration, fun loaded hstage => ?_⟩
  rw [hload]
  rw [advance?] at hg
  split at hg
  · split at hg <;> cases hg
    cases hstage
  · split at hg
    · cases hg
    · split at hg
      · cases hg
      next hc =>
        cases hg
        cases hstage
        rw [combine] at hc
        split at hc <;> cases hc
        exact ⟨rfl, congrArg some hdirectory⟩
  · cases hg
    exact hloaded loaded hstage

end Flight

/-! ## The directory when it is named by its own text -/

theorem isAbsolute_of_isDirectory {tree : Tree} {d : Path} (h : tree.isDirectory d = true) :
    d.isAbsolute = true := by
  rw [Tree.isDirectory, Tree.find] at h
  cases ha : d.isAbsolute with
  | true => rfl
  | false =>
    rw [ha] at h
    split at h
    next hf =>
      split at hf
      · cases hf
      split at hf <;> cases hf
    next => cases h

theorem of_directory? {disk : Disk} {path : Option Text} {d : Path} (h : directory? disk path = some d) :
    disk.expandHome (written path) = .ok d ∧ disk.tree.isDirectory d = true := by
  simp only [directory?] at h
  split at h
  · cases h
  split at h
  · cases h
  next hexpand =>
    split at h
    next hd =>
      cases h
      exact ⟨hexpand, (Bool.and_eq_true_iff.1 hd).2⟩
    · cases h

theorem directory?_toText {disk : Disk} {d : Path} (hback : written (some d.toText) = d)
    (h : disk.tree.isDirectory d = true) : directory? disk (some d.toText) = some d := by
  have habsolute := isAbsolute_of_isDirectory h
  have hraw : (Text.trim d.toText).isEmpty = false := by
    cases hempty : (Text.trim d.toText).isEmpty with
    | false => rfl
    | true =>
      rw [written, Option.getD_some, List.isEmpty_iff.1 hempty] at hback
      rw [← hback] at habsolute
      cases habsolute
  have hexpand : disk.expandHome d = .ok d := by
    rw [Disk.expandHome]
    split
    next hroot _ => rw [Path.isAbsolute, hroot] at habsolute; cases habsolute
    next => rfl
  rw [written, Option.getD_some] at hback
  simp only [directory?, Option.getD_some, hraw, Bool.false_eq_true, if_false, hback, hexpand, habsolute, h,
    Bool.and_self, if_true]

/-- A directory is named by its own text, unless that ends in a blank. -/
theorem written_toText {disk : Disk} {path : Option Text} {d : Path} (hdisk : disk.Normal)
    (hd : directory? disk path = some d) (htrim : Text.trim d.toText = d.toText) :
    written (some d.toText) = d := by
  obtain ⟨hexpand, hdirectory⟩ := of_directory? hd
  have hnormal : d.Normal := hdisk.expandHome (Path.normal_ofText _) hexpand
  rw [written, Option.getD_some, htrim, Path.ofText_toText hnormal (isAbsolute_of_isDirectory hdirectory)]

/-! ## What the hook does -/

theorem reloadedBy_of_none {s : Store} {uri : Text} (h : s.snapshot.path = none) :
    s.reloadedBy uri = .ok none := by
  rw [Store.reloadedBy, h]

theorem Names.reloadedBy {s : Store} {uri : Text} {d : Path} {source : SourceKind}
    (h : Names uri (d.child source.file)) (hd : s.snapshot.path = some d) :
    s.reloadedBy uri = .ok (some d) := by
  obtain ⟨parts, text, huri, hfile, hne, hpath⟩ := h
  refine Exchange.reloadedBy_source hd huri hfile hne ?_ ?_
  · rw [hpath, Path.parent, Path.child, List.dropLast_concat]
  · have hname : (d.child source.file).name = source.file := by
      rw [Path.name, Path.child, List.getLast?_concat, Option.getD_some]
    rw [hpath, Path.stem, hname]
    cases source <;> decide

namespace Watch

variable {readers : Readers} {d : Path} {w : Watch} {source : SourceKind} {uri : Text}

/-- Before a load has been taken in, a save begins nothing. -/
theorem save_of_none (hnone : w.store.snapshot.path = none) :
    w.save source uri =
      { w with
        unsaved := w.unsaved.filter (· != source)
        missed := if w.flights.any (·.awaits source) then w.missed else source :: w.missed } := by
  simp only [save, Store.startSaved, reloadedBy_of_none hnone, Flight.ofBegun, List.nil_append, ne_eq,
    not_true, if_false]

/-- Afterwards it has the directory read again. -/
theorem save_of_path (hpath : w.store.snapshot.path = some d) (h : Names uri (d.child source.file))
    (hd : directory? w.disk (some d.toText) = some d) :
    w.save source uri =
      { w with
        store := { w.store with generation := w.store.generation + 1 }
        flights := ⟨⟨d, w.store.generation + 1⟩, .begun⟩ :: w.flights
        unsaved := w.unsaved.filter (· != source)
        missed := [] } := by
  simp only [save, Store.startSaved, h.reloadedBy hpath, w.store.start_of_directory hd, Flight.ofBegun,
    List.singleton_append, ne_eq, Nat.succ_ne_self, not_false_eq_true, if_true]

/-! ## What every step keeps -/

theorem Inv.configured {disk : Disk} {path : Option Text} (hd : directory? disk path = some d)
    (verbose attached : Bool) : Inv readers d (configured (.init verbose attached) disk path) := by
  rw [Watch.configured, Store.start_of_directory _ hd]
  refine ⟨(of_directory? hd).2, ?_, List.nodup_singleton _, Nat.zero_le _, .inr ⟨rfl, ?_⟩, ?_, ?_⟩
  · intro f hf
    obtain rfl := List.mem_singleton.1 hf
    exact ⟨rfl, Nat.le_refl _, nofun⟩
  · intro f hf
    obtain rfl := List.mem_singleton.1 hf
    rfl
  · intro f hf _
    obtain rfl := List.mem_singleton.1 hf
    trivial
  · intro hnone
    exact absurd rfl (hnone _ (List.mem_singleton.2 rfl))

theorem Inv.write (h : Inv readers d w) (hdots : dots ∉ d.segments) (source : SourceKind)
    (content : Text.Bytes) : Inv readers d (w.write d source content) := by
  have hname : source.file ≠ dots := by cases source <;> decide
  have hmono : ∀ other, w.Stale other → (w.write d source content).Stale other := fun other hs =>
    hs.imp_left (List.mem_cons_of_mem source)
  have hsource : (w.write d source content).Stale source := .inl List.mem_cons_self
  have hdirectory := Tree.isDirectory_write hdots hname h.directory content
  refine ⟨hdirectory, h.sound, h.distinct, h.behind, h.path, ?_, fun _ => .inr (.inr ⟨source, hsource⟩)⟩
  intro f hf hlatest
  exact (h.awaited f hf hlatest).write (h.sound f hf).directory hdots h.directory content hmono hsource

/-- A save that has the directory read again: nothing has been read yet that could be out
of date. -/
theorem Inv.save_again (h : Inv readers d w) (hback : written (some d.toText) = d)
    (hnames : Names uri (d.child source.file)) (hpath : w.store.snapshot.path = some d) :
    Inv readers d (w.save source uri) := by
  rw [save_of_path hpath hnames (directory?_toText hback h.directory)]
  have hbelow : ∀ f ∈ w.flights, f.load.generation ≤ w.store.generation :=
    fun f hf => (h.sound f hf).generation
  refine ⟨h.directory, ?_, ?_, Nat.le_succ_of_le h.behind, .inl hpath, ?_, ?_⟩
  · intro f hf
    rcases List.mem_cons.1 hf with rfl | hf
    · exact ⟨rfl, Nat.le_refl _, nofun⟩
    · obtain ⟨hdirectory, hgeneration, hloaded⟩ := h.sound f hf
      exact ⟨hdirectory, Nat.le_succ_of_le hgeneration, hloaded⟩
  · refine List.nodup_cons.2 ⟨fun hmem => ?_, h.distinct⟩
    obtain ⟨f, hf, hgeneration⟩ := List.mem_map.1 hmem
    have := hbelow f hf
    simp only at hgeneration
    omega
  · intro f hf hlatest
    rcases List.mem_cons.1 hf with rfl | hf
    · trivial
    · have := hbelow f hf
      simp only at hlatest
      omega
  · intro hother
    exact absurd rfl (hother _ List.mem_cons_self)

/-- A save that begins nothing: the first load has still to read the source, or the source
is missed. -/
theorem Inv.save_first (h : Inv readers d w) (hnone : w.store.snapshot.path = none)
    (hfirst : ∀ f ∈ w.flights, f.load.generation = w.store.generation) :
    Inv readers d (w.save source uri) := by
  rw [save_of_none hnone]
  by_cases hawaits : w.flights.any (·.awaits source) = true
  · obtain ⟨g, hg, ha⟩ := List.any_eq_true.1 hawaits
    rw [if_pos hawaits]
    refine ⟨h.directory, h.sound, h.distinct, h.behind, .inr ⟨hnone, hfirst⟩, ?_, ?_⟩
    · intro f hf hlatest
      obtain rfl := List.inj_on_of_nodup_map h.distinct hf hg ((hfirst f hf).trans (hfirst g hg).symm)
      refine (h.awaited f hf hlatest).of_awaits ha fun other hne => Or.imp_left fun hs => ?_
      exact List.mem_filter.2 ⟨hs, bne_iff_ne.2 hne⟩
    · intro hother
      exact absurd (hfirst g hg) (hother g hg)
  · rw [if_neg hawaits]
    have hmono : ∀ other, w.Stale other →
        other ∈ w.unsaved.filter (· != source) ∨ other ∈ source :: w.missed := by
      rintro other (hs | hs)
      · by_cases hne : other = source
        · exact .inr (hne ▸ List.mem_cons_self)
        · exact .inl (List.mem_filter.2 ⟨hs, bne_iff_ne.2 hne⟩)
      · exact .inr (List.mem_cons_of_mem source hs)
    refine ⟨h.directory, h.sound, h.distinct, h.behind, .inr ⟨hnone, hfirst⟩, ?_, ?_⟩
    · exact fun f hf hlatest => (h.awaited f hf hlatest).mono hmono
    · exact fun _ => .inr (.inr ⟨source, .inr List.mem_cons_self⟩)

theorem Inv.save (h : Inv readers d w) (hback : written (some d.toText) = d)
    (hnames : Names uri (d.child source.file)) : Inv readers d (w.save source uri) := by
  obtain hpath | ⟨hnone, hfirst⟩ := h.path
  · exact h.save_again hback hnames hpath
  · exact h.save_first hnone hfirst

theorem Inv.read {store : Store} {disk : Disk} {before after : List Flight} {f : Flight}
    {unsaved missed : List SourceKind}
    (h : Inv readers d ⟨store, disk, before ++ f :: after, unsaved, missed⟩) :
    Inv readers d
      ⟨store, disk, before ++ ((f.advance? readers disk.tree).toList ++ after), unsaved, missed⟩ := by
  have hf : f ∈ before ++ f :: after := List.mem_append_right before List.mem_cons_self
  have hmem : ∀ g ∈ before ++ ((f.advance? readers disk.tree).toList ++ after),
      g ∈ before ++ f :: after ∨ f.advance? readers disk.tree = some g := by
    intro g hg
    rw [List.mem_append, List.mem_append, Option.mem_toList] at hg
    rcases hg with hg | hg | hg
    · exact .inl (List.mem_append_left _ hg)
    · exact .inr hg
    · exact .inl (List.mem_append_right before (List.mem_cons_of_mem f hg))
  refine ⟨h.directory, fun g hg => ?_, ?_, h.behind, h.path.imp_right (And.imp_right fun hfirst g hg => ?_),
    fun g hg hlatest => ?_, fun hother => ?_⟩
  · rcases hmem g hg with hg | hg
    · exact h.sound g hg
    · exact (h.sound f hf).advance hg
  · refine h.distinct.sublist ?_
    cases hadvance : f.advance? readers disk.tree with
    | none => exact ((List.sublist_cons_self f after).append_left before).map _
    | some g => simp [Flight.advance?_load hadvance]
  · rcases hmem g hg with hg | hg
    · exact hfirst g hg
    · rw [Flight.advance?_load hg]
      exact hfirst f hf
  · rcases hmem g hg with hg | hg
    · exact h.awaited g hg hlatest
    · rw [Flight.advance?_load hg] at hlatest
      exact (h.awaited f hf hlatest).of_advance hg
  · by_cases hlatest : f.load.generation = store.generation
    · have hnone : f.advance? readers disk.tree = none := by
        cases hadvance : f.advance? readers disk.tree with
        | none => rfl
        | some g =>
          refine absurd ?_ (hother g (by simp [hadvance]))
          rw [Flight.advance?_load hadvance]
          exact hlatest
      have hfails := (h.awaited f hf hlatest).of_fails hnone
      rw [(h.sound f hf).directory, hlatest] at hfails
      exact .inr hfails
    · refine h.landed fun g hg => ?_
      rw [List.mem_append, List.mem_cons] at hg
      rcases hg with hg | rfl | hg
      · exact hother g (List.mem_append_left _ hg)
      · exact hlatest
      · exact hother g (List.mem_append_right _ (List.mem_append_right _ hg))

section Commit

variable {store : Store} {disk : Disk} {before after : List Flight} {load : Load}
  {loaded : Snapshot × List Problem} {unsaved missed : List SourceKind}

/-- A load leaves the loads in flight when it is taken in, and the snapshot is either what
it was or what was read. -/
theorem Inv.of_commit {snapshot : Snapshot}
    (h : Inv readers d ⟨store, disk, before ++ ⟨load, .read loaded⟩ :: after, unsaved, missed⟩)
    (hbehind : snapshot.generation ≤ store.generation) (hpath : snapshot.path = some d)
    (hlanded : (∀ g ∈ before ++ after, g.load.generation ≠ store.generation) →
      Landed readers d disk.tree (Stale ⟨store, disk, before ++ after, unsaved, missed⟩)
        { store with snapshot := snapshot }) :
    Inv readers d ⟨{ store with snapshot := snapshot }, disk, before ++ after, unsaved, missed⟩ := by
  have hsub : (before ++ after).Sublist (before ++ ⟨load, .read loaded⟩ :: after) :=
    (List.sublist_cons_self _ after).append_left before
  exact ⟨h.directory, fun g hg => h.sound g (hsub.subset hg), h.distinct.sublist (hsub.map _), hbehind,
    .inl hpath, fun g hg => h.awaited g (hsub.subset hg), hlanded⟩

/-- The load that began last is taken in: nothing is awaited any more. -/
theorem Inv.commit_latest
    (h : Inv readers d ⟨store, disk, before ++ ⟨load, .read loaded⟩ :: after, unsaved, missed⟩)
    (hlatest : load.generation = store.generation) :
    Inv readers d ⟨(store.commit loaded.1).1, disk, before ++ after, unsaved, missed⟩ := by
  have hf : ⟨load, .read loaded⟩ ∈ before ++ ⟨load, .read loaded⟩ :: after :=
    List.mem_append_right before List.mem_cons_self
  obtain ⟨hdirectory, -, hloaded⟩ := h.sound _ hf
  obtain ⟨hbuilt, hpath⟩ := hloaded loaded rfl
  rw [Store.commit_of_le (by rw [hbuilt, hlatest]; exact h.behind)]
  refine h.of_commit (by rw [hbuilt, hlatest]) hpath fun _ => ?_
  have hsees : Extensions.load readers disk.tree load.directory load.generation = .ok loaded ∨
      ∃ source, Stale _ source := h.awaited _ hf hlatest
  rw [hdirectory, hlatest] at hsees
  rcases hsees with hsees | hstale
  · exact .inl ⟨hbuilt.trans hlatest, loaded.2, hsees⟩
  · exact .inr (.inr hstale)

/-- One that began earlier is taken in only while no later one has been. -/
theorem Inv.commit_earlier
    (h : Inv readers d ⟨store, disk, before ++ ⟨load, .read loaded⟩ :: after, unsaved, missed⟩)
    (hearlier : load.generation ≠ store.generation) :
    Inv readers d ⟨(store.commit loaded.1).1, disk, before ++ after, unsaved, missed⟩ := by
  have hf : ⟨load, .read loaded⟩ ∈ before ++ ⟨load, .read loaded⟩ :: after :=
    List.mem_append_right before List.mem_cons_self
  obtain ⟨-, hgeneration, hloaded⟩ := h.sound _ hf
  obtain ⟨hbuilt, hpath⟩ := hloaded loaded rfl
  have hsnapshot : store.snapshot.path = some d :=
    h.path.resolve_right fun hfirst => hearlier (hfirst.2 _ hf)
  have hlanded : (∀ g ∈ before ++ after, g.load.generation ≠ store.generation) →
      Landed readers d disk.tree (Stale ⟨store, disk, before ++ after, unsaved, missed⟩) store := by
    intro hother
    refine h.landed fun g hg => ?_
    rw [List.mem_append, List.mem_cons] at hg
    rcases hg with hg | rfl | hg
    · exact hother g (List.mem_append_left _ hg)
    · exact hearlier
    · exact hother g (List.mem_append_right _ hg)
  by_cases hold : loaded.1.generation < store.snapshot.generation
  · rw [Store.commit_of_lt hold]
    exact h.of_commit h.behind hsnapshot hlanded
  · rw [Store.commit_of_le (Nat.le_of_not_lt hold)]
    refine h.of_commit (by rw [hbuilt]; exact hgeneration) hpath fun hother => ?_
    refine (hlanded hother).imp_left fun hheld => absurd ?_ hold
    rw [hbuilt, hheld.1]
    exact Nat.lt_of_le_of_ne hgeneration hearlier

theorem Inv.commit
    (h : Inv readers d ⟨store, disk, before ++ ⟨load, .read loaded⟩ :: after, unsaved, missed⟩) :
    Inv readers d ⟨(store.finish load loaded).1, disk, before ++ after, unsaved, missed⟩ := by
  rw [Store.finish_fst]
  by_cases hlatest : load.generation = store.generation
  · exact h.commit_latest hlatest
  · exact h.commit_earlier hlatest

end Commit

theorem Inv.step {w' : Watch} (h : Inv readers d w) (hdots : dots ∉ d.segments)
    (hback : written (some d.toText) = d) (hs : Step readers d w w') : Inv readers d w' := by
  cases hs with
  | write source content => exact h.write hdots source content
  | save hnames => exact h.save hback hnames
  | read => exact h.read
  | commit => exact h.commit

theorem Reachable.inv {disk : Disk} {path : Option Text} (h : Reachable readers disk path d w)
    (hd : directory? disk path = some d) (hdots : dots ∉ d.segments) (hback : written (some d.toText) = d) :
    Inv readers d w := by
  obtain ⟨verbose, attached, h⟩ := h
  induction h with
  | refl => exact .configured hd verbose attached
  | tail _ hs ih => exact ih.step hdots hback hs

/-! ## Steps with nothing in between -/

/-- What is left to do of an update leads to where its steps lead. -/
theorem run_complete (store : Store) (disk : Disk) (begun : Begun) (flights : List Flight)
    (unsaved missed : List SourceKind) :
    ReflTransGen (Step readers d) ⟨store, disk, Flight.ofBegun begun ++ flights, unsaved, missed⟩
      ⟨(store.complete readers disk begun).2.1, disk, flights, unsaved, missed⟩ := by
  cases begun with
  | settled => exact .refl
  | failed why => exact .refl
  | reading load =>
    have first := @Step.read readers d store disk [] ⟨load, .begun⟩ flights unsaved missed
    rw [Store.complete, Store.finishFrom]
    cases hs : readSource readers disk.tree load.directory snippetsName with
    | error why =>
      have hl := (load_eq_error_iff (n := load.generation)).2 (.snippets (readSource_eq_error_iff.1 hs))
      simp only [Flight.advance?, hs] at first
      rw [hl]
      exact .single first
    | ok snippets =>
      have second := @Step.read readers d store disk [] ⟨load, .halfway snippets⟩ flights unsaved missed
      simp only [Flight.advance?, hs] at first
      cases hp : readSource readers disk.tree load.directory profilesName with
      | error why =>
        have hl := (load_eq_error_iff (n := load.generation)).2
          (.profiles (not_fault_of_read hs) (readSource_eq_error_iff.1 hp))
        simp only [Flight.advance?, hp] at second
        rw [hl]
        exact (ReflTransGen.single first).tail second
      | ok profiles =>
        rw [load_of_read hs hp]
        cases hc : combine load.directory load.generation snippets profiles with
        | error why =>
          simp only [Flight.advance?, hp, hc] at second
          exact (ReflTransGen.single first).tail second
        | ok loaded =>
          simp only [Flight.advance?, hp, hc] at second
          exact ((ReflTransGen.single first).tail second).tail
            (@Step.commit readers d store disk [] load loaded flights unsaved missed)

/-- An update with nothing in between is a run. -/
theorem run_update (store : Store) (disk : Disk) (path : Option Text) :
    ReflTransGen (Step readers d) (configured store disk path)
      ⟨(store.update readers disk path).2.1, disk, [], [], []⟩ := by
  have run := @run_complete readers d (store.start disk path).2.1 disk (store.start disk path).1 [] [] []
  rwa [List.append_nil] at run

/-- So is what is left to do of the update that a save has begun. -/
theorem run_saved (w : Watch) (source : SourceKind) (uri : Text) :
    ReflTransGen (Step readers d) (w.save source uri)
      { w.save source uri with
        store := (w.store.saved readers w.disk uri).2.1
        flights := w.flights } :=
  run_complete (w.store.startSaved w.disk uri).2.1 w.disk (w.store.startSaved w.disk uri).1 w.flights _ _

/-! ## When a save is missed -/

/-- Once a load has been taken in, the snapshot stays with its directory, and no save is
missed any more. -/
theorem Step.keeps_path {w' : Watch} (hs : Step readers d w w') (h : Inv readers d w)
    (hback : written (some d.toText) = d) (hpath : w.store.snapshot.path = some d) (hmissed : w.missed = []) :
    w'.store.snapshot.path = some d ∧ w'.missed = [] := by
  cases hs with
  | write source content => exact ⟨hpath, hmissed⟩
  | save hnames =>
    rw [save_of_path hpath hnames (directory?_toText hback h.directory)]
    exact ⟨hpath, rfl⟩
  | read => exact ⟨hpath, hmissed⟩
  | @commit store disk before load loaded after unsaved missed =>
    have hsound := h.sound ⟨load, .read loaded⟩ (List.mem_append_right before List.mem_cons_self)
    refine ⟨?_, hmissed⟩
    rw [Store.finish_fst, Store.commit_fst]
    split
    · exact hpath
    · exact (hsound.loaded loaded rfl).2

theorem keeps_path_of_run {w' : Watch} (hrun : ReflTransGen (Step readers d) w w') (h : Inv readers d w)
    (hdots : dots ∉ d.segments) (hback : written (some d.toText) = d)
    (hpath : w.store.snapshot.path = some d) (hmissed : w.missed = []) :
    Inv readers d w' ∧ w'.store.snapshot.path = some d ∧ w'.missed = [] := by
  induction hrun with
  | refl => exact ⟨h, hpath, hmissed⟩
  | tail _ hs ih =>
    obtain ⟨hinv, hpath, hmissed⟩ := ih
    exact ⟨hinv.step hdots hback hs, hs.keeps_path hinv hback hpath hmissed⟩

/-- A source that is written and saved while nothing has been taken in and no load awaits
it begins nothing. -/
theorem run_missed {readers : Readers} (content : Text.Bytes) (hnames : Names uri (d.child source.file))
    (hnone : w.store.snapshot.path = none) (hread : w.flights.any (·.awaits source) = false)
    (hsaved : w.unsaved = []) :
    ReflTransGen (Step readers d) w
      { w.write d source content with unsaved := [], missed := source :: w.missed } := by
  have saving := @Step.save readers d (w.write d source content) source uri hnames
  have hunsaved : (w.write d source content).unsaved.filter (· != source) = [] := by
    simp [write, hsaved]
  have hflights : ¬ (w.write d source content).flights.any (·.awaits source) = true := by
    simp [write, hread]
  rw [save_of_none (w := w.write d source content) hnone, hunsaved, if_neg hflights] at saving
  exact (ReflTransGen.single (.write source content)).tail saving

/-- **A save is missed while the first load is in flight.** A source that is written and
saved when the first load has read it leaves the snapshot with what was there before, and
no load in flight. -/
theorem early_save_missed {readers : Readers} {disk : Disk} {path : Option Text}
    {loaded : Snapshot × List Problem} (hd : directory? disk path = some d)
    (hl : Extensions.load readers disk.tree d 1 = .ok loaded) (content : Text.Bytes)
    (hnames : Names uri (d.child source.file)) :
    ∃ w, Reachable readers disk path d w ∧ w.flights = [] ∧ w.unsaved = [] ∧
      w.disk.tree = disk.tree.write (d.child source.file) content ∧ w.store.snapshot = loaded.1 := by
  obtain ⟨snippets, profiles, hs, hp, hc⟩ := exists_read_of_load hl
  let store : Store := { Store.init false true with generation := 1 }
  let begun : Watch := ⟨store, disk, [⟨⟨d, 1⟩, .begun⟩], [], []⟩
  let read : Watch := { begun with flights := [⟨⟨d, 1⟩, .read loaded⟩] }
  have hbegun : configured (.init false true) disk path = begun := by
    rw [configured, Store.start_of_directory _ hd]
    rfl
  have reading : ReflTransGen (Step readers d) begun read := by
    have first := @Step.read readers d store disk [] ⟨⟨d, 1⟩, .begun⟩ [] [] []
    have second := @Step.read readers d store disk [] ⟨⟨d, 1⟩, .halfway snippets⟩ [] [] []
    simp only [Flight.advance?, hs] at first
    simp only [Flight.advance?, hp, hc] at second
    exact (ReflTransGen.single first).tail second
  have saving : ReflTransGen (Step readers d) read _ := run_missed content hnames rfl rfl rfl
  have ending := @Step.commit readers d store (read.write d source content).disk [] ⟨d, 1⟩ loaded [] []
    [source]
  have run := (reading.trans saving).tail ending
  rw [← hbegun] at run
  refine ⟨_, ⟨false, true, run⟩, rfl, rfl, rfl, ?_⟩
  rw [Store.finish_fst, Store.commit_of_le (by rw [(load_target hl).1]; exact Nat.zero_le 1)]

/-- **Every save is missed when the first load has failed.** -/
theorem save_missed_of_failed {readers : Readers} {disk : Disk} {path : Option Text} {why : LoadFault}
    (hd : directory? disk path = some d) (hl : Extensions.load readers disk.tree d 1 = .error why)
    (content : Text.Bytes) (hnames : Names uri (d.child source.file)) :
    ∃ w, Reachable readers disk path d w ∧ w.flights = [] ∧ w.unsaved = [] ∧
      w.disk.tree = disk.tree.write (d.child source.file) content ∧ w.store.snapshot = .builtin 0 := by
  let failed : Watch := ⟨{ Store.init false true with generation := 1 }, disk, [], [], []⟩
  have ending : ReflTransGen (Step readers d) (configured (.init false true) disk path) failed := by
    have run := @run_update readers d (.init false true) disk path
    simp only [Store.update, Store.start_of_directory _ hd, Store.complete, Store.finishFrom] at run
    rwa [show (Store.init false true).generation + 1 = 1 from rfl, hl] at run
  have saving : ReflTransGen (Step readers d) failed _ := run_missed content hnames rfl rfl rfl
  exact ⟨_, ⟨false, true, ending.trans saving⟩, rfl, rfl, rfl, rfl⟩

/-! ## When nothing is in flight -/

theorem Inv.fresh (h : Inv readers d w) (hquiet : w.flights = []) (hsaved : w.unsaved = [])
    (hmissed : w.missed = []) : w.Fresh readers d := by
  intro loaded hloaded
  obtain ⟨hgeneration, problems, hl⟩ | ⟨why, hl⟩ | ⟨source, hs⟩ := h.landed (by simp [hquiet])
  · rw [hgeneration, hl, Except.ok.injEq] at hloaded
    rw [← hloaded]
  · rw [load_eq_error_iff, ← load_eq_error_iff (n := w.store.snapshot.generation)] at hl
    rw [hl] at hloaded
    cases hloaded
  · rw [Stale, hsaved, hmissed] at hs
    simp at hs

/-- **The snapshot is fresh unless a save was missed.** Sources of one directory, whose
name does not end in a blank, are written and saved in whatever order with the loads
reading them and being taken in. Once no load is in flight and all that was written has
been saved, the snapshot is what the directory holds, unless a save came when nothing had
been taken in yet and no load was still to read its source. After a load has been taken in
no save is lost. -/
theorem fresh_unless_missed {disk : Disk} {path : Option Text} (hdisk : disk.Normal)
    (hd : directory? disk path = some d) (hdots : dots ∉ d.segments) (htrim : Text.trim d.toText = d.toText)
    (h : Reachable readers disk path d w) :
    (w.flights = [] → w.unsaved = [] → w.missed = [] → w.Fresh readers d) ∧
    (w.store.snapshot.path = some d → ∀ source uri w', Names uri (d.child source.file) →
      ReflTransGen (Step readers d) (w.save source uri) w' → w'.flights = [] → w'.unsaved = [] →
      w'.Fresh readers d) := by
  have hback := written_toText hdisk hd htrim
  have hi := h.inv hd hdots hback
  refine ⟨hi.fresh, fun hpath source uri w' hnames hrun hquiet hsaved => ?_⟩
  have hafter : (w.save source uri).store.snapshot.path = some d ∧ (w.save source uri).missed = [] := by
    rw [save_of_path hpath hnames (directory?_toText hback hi.directory)]
    exact ⟨hpath, rfl⟩
  obtain ⟨hi', -, hmissed⟩ := keeps_path_of_run hrun (hi.save hback hnames) hdots hback hafter.1 hafter.2
  exact hi'.fresh hquiet hsaved hmissed

/-- A source with one snippet, `bar` under the key `foo`. -/
def oneSnippet : Text.Bytes :=
  Text.utf8 "\x7b\"html\": \x7b\"snippets\": \x7b\"foo\": \"bar\"\x7d\x7d\x7d".toList

/-- The snippets of `/a` are written and saved when the directory has been read, and they
are there in the end. -/
theorem fresh_unless_missed_saved :
    ∃ w, Reachable Readers.standard Traffic.plainDisk (some ['/', 'a']) ⟨.single, [['a']]⟩ w ∧
      w.flights = [] ∧ w.unsaved = [] ∧ w.Fresh Readers.standard ⟨.single, [['a']]⟩ ∧
      (w.store.snapshot.resolveSnippets "html".toList).map (·.entries) =
        some [("foo".toList, "bar".toList)] := by
  let a : Path := ⟨.single, [['a']]⟩
  let uri := "file:///a/snippets.json".toList
  have names : Names uri (a.child SourceKind.snippets.file) :=
    ⟨⟨"file".toList, [], "/a/snippets.json".toList⟩, "/a/snippets.json".toList, rfl, by decide +kernel,
      by decide, by decide⟩
  have hasA : directory? Traffic.plainDisk (some ['/', 'a']) = some a := by decide
  have normal : Traffic.plainDisk.Normal := ⟨nofun, nofun⟩
  let first : Watch :=
    ⟨((Store.init false true).update Readers.standard Traffic.plainDisk (some ['/', 'a'])).2.1,
      Traffic.plainDisk, [], [], []⟩
  let changed := first.write a .snippets oneSnippet
  let saved : Watch := { changed.save .snippets uri with
    store := (changed.store.saved Readers.standard changed.disk uri).2.1
    flights := [] }
  have reached : Reachable Readers.standard Traffic.plainDisk (some ['/', 'a']) a changed :=
    ⟨false, true, (run_update _ _ _).tail (.write .snippets oneSnippet)⟩
  have saving : ReflTransGen (Step Readers.standard a) (changed.save .snippets uri) saved :=
    run_saved changed .snippets uri
  have fresh : saved.Fresh Readers.standard a :=
    (fresh_unless_missed normal hasA (by decide) (by decide) reached).2 (by decide +kernel) .snippets uri
      saved names saving rfl (by decide +kernel)
  obtain ⟨verbose, attached, run⟩ := reached
  exact ⟨saved, ⟨verbose, attached, (run.tail (.save names)).trans saving⟩, rfl, by decide +kernel, fresh,
    by decide +kernel⟩

/-- The snapshot is not always fresh: the directory's name ends in a blank, and the hook
trims it when the directory is to be read again. -/
theorem fresh_not_always :
    ¬ ∀ (disk : Disk) (path : Option Text) (d : Path) (w : Watch), disk.Normal →
      directory? disk path = some d → dots ∉ d.segments → Reachable Readers.standard disk path d w →
      w.flights = [] → w.unsaved = [] → w.Fresh Readers.standard d := by
  intro claim
  let disk : Disk := { Traffic.plainDisk with tree := ⟨.ofList [([['d', ' ']], .directory)]⟩ }
  let d : Path := ⟨.single, [['d', ' ']]⟩
  let path : Text := ['/', 'd', ' ', '/']
  let uri := "file:///d%20/snippets.json".toList
  have names : Names uri (d.child SourceKind.snippets.file) :=
    ⟨⟨"file".toList, [], "/d%20/snippets.json".toList⟩, "/d /snippets.json".toList, rfl, by decide +kernel,
      by decide, by decide⟩
  let first : Watch :=
    ⟨((Store.init false true).update Readers.standard disk (some path)).2.1, disk, [], [], []⟩
  let changed := first.write d .snippets oneSnippet
  let saved : Watch := { changed.save .snippets uri with
    store := (changed.store.saved Readers.standard changed.disk uri).2.1
    flights := [] }
  have reached : Reachable Readers.standard disk (some path) d saved :=
    ⟨false, true, (((run_update _ _ _).tail (.write .snippets oneSnippet)).tail (.save names)).trans
      (run_saved changed .snippets uri)⟩
  have fresh : saved.Fresh Readers.standard d :=
    claim disk (some path) d saved ⟨nofun, nofun⟩ (by decide) (by decide) reached rfl (by decide +kernel)
  have gone : saved.store.snapshot.path = none := by decide +kernel
  have there : (Extensions.load Readers.standard saved.disk.tree d
      saved.store.snapshot.generation).toBool = true := by decide +kernel
  cases hl : Extensions.load Readers.standard saved.disk.tree d saved.store.snapshot.generation with
  | error why =>
    rw [hl] at there
    cases there
  | ok loaded =>
    rw [fresh loaded hl, (load_target hl).2] at gone
    cases gone

end Watch

end Shorthand.Server
