/-
Whether the store of a session holds what the settings name. Requests that change the
path of the settings begin updates of the store, and so do saved files; the latter read
the directory of the snapshot that is there, whatever the settings name by then.

`belongs_iff_reload` says exactly when the two agree in the end: the last update that has
not failed was asked for by a request, or it read the directory that was applied last.
`run_of_request` ties the steps to the functions that answer requests in one go.
-/
import Shorthand.Proofs.Extensions.Traffic
import Shorthand.Server.Session

namespace Shorthand.Server

open Data Extensions Files Relation

/-- A session with all the updates of its store that have begun, the last one first. -/
structure Exchange where
  session : Session
  updates : List Update

namespace Exchange

def start : Exchange := ⟨.start, []⟩

def traffic (e : Exchange) : Traffic := ⟨e.session.store, e.updates⟩

/-- What is left when a request has done its first step: when that has begun an update of
the store, it is one of the updates. -/
def after (e : Exchange) (cause : Cause) (disk : Disk) (path : Option Text)
    (first : Begun × Session × Log) : Exchange :=
  let (begun, session, _) := first
  let generation := session.store.generation
  if generation = e.session.store.generation then ⟨session, e.updates⟩
  else ⟨session, ⟨cause, disk, path, .ofBegun generation begun⟩ :: e.updates⟩

def initialise (e : Exchange) (disk : Disk) (options : Value) : Exchange :=
  let settings := Settings.ofValue options
  e.after .request disk settings.extensionsPath
    ({ e.session with workspace := some .empty }.startSettings disk settings)

def configure (e : Exchange) (disk : Disk) (sent : Value) : Exchange :=
  let settings := Session.configuredSettings sent
  e.after .request disk settings.extensionsPath (e.session.startSettings disk settings)

def setPath (e : Exchange) (disk : Disk) (path : Option Text) : Exchange :=
  e.after .request disk path (e.session.startPath disk path)

/-- A file is saved; when it is a source of the snapshot, its directory is read again. -/
def save (e : Exchange) (disk : Disk) (uri : Text) : Exchange :=
  let (begun, store, log) := e.session.store.startSaved disk uri
  e.after .save disk (e.session.store.snapshot.path.map Path.toText)
    (begun, { e.session with store := store }, log)

/-- The steps of a session: requests and saved files, in whatever order, and the updates
that they began going on in between. -/
inductive Step (readers : Readers) : Exchange → Exchange → Prop
  | initialise {e} (disk : Disk) (options : Value) : Step readers e (e.initialise disk options)
  | configure {e} (disk : Disk) (sent : Value) : Step readers e (e.configure disk sent)
  | setPath {e} (disk : Disk) (path : Option Text) : Step readers e (e.setPath disk path)
  | save {e} (disk : Disk) (uri : Text) : Step readers e (e.save disk uri)
  | advance {e : Exchange} {t : Traffic} (h : Traffic.Advance readers e.traffic t) :
      Step readers e ⟨{ e.session with store := t.store }, t.updates⟩

/-- What a run of a session leads to. -/
def Reachable (readers : Readers) (e : Exchange) : Prop := ReflTransGen (Step readers) start e

/-- The last update that a request began. -/
def lastRequest? (updates : List Update) : Option Update := updates.find? (·.cause == .request)

/-- The directory that the path of the settings named when it was applied last. -/
def appliedDirectory (e : Exchange) : Option Path :=
  (lastRequest? e.updates).bind fun u => directory? u.disk e.session.settings.extensionsPath

/-- No load is in flight. -/
def Quiet (e : Exchange) : Prop := ∀ u ∈ e.updates, ¬ u.InFlight

/-- No update that a request began has failed. -/
def Served (e : Exchange) : Prop := ∀ u ∈ e.updates, u.cause = .request → u.isFailed = false

/-- The last update that has not failed. -/
def lastUnfailed? (updates : List Update) : Option Update := updates.find? (!·.isFailed)

/-- Every update that a saved file began read the directory that had been applied last. -/
def Faithful : List Update → Prop
  | [] => True
  | u :: older =>
    (u.cause = .save → u.directory = (lastRequest? older).bind Update.directory) ∧ Faithful older

/-- What every step keeps. -/
structure Inv (e : Exchange) : Prop where
  traffic : e.traffic.Inv
  /-- The path of the settings is the one that was applied last. -/
  settings : (lastRequest? e.updates).bind (·.path) = e.session.settings.extensionsPath

/-! ## Every step is one of the store, or leaves it as it is -/

theorem after_same {e : Exchange} {cause : Cause} {disk : Disk} {path : Option Text} {begun : Begun}
    {log : Log} (session : Session) (h : session.store = e.session.store) :
    e.after cause disk path (begun, session, log) = ⟨session, e.updates⟩ := by
  simp only [after, h, if_true]

/-- A step that begins an update is that step of the store. -/
theorem after_start {e : Exchange} {cause : Cause} {disk : Disk} {path : Option Text} {session : Session}
    (h : session.store = e.session.store) :
    e.after cause disk path (session.startUpdate disk path) =
      ⟨{ session with store := (e.traffic.start cause disk path).store },
        (e.traffic.start cause disk path).updates⟩ := by
  have hne : ¬ (e.session.store.start disk path).2.1.generation = e.session.store.generation := by
    rw [Store.start_generation]
    omega
  simp only [after, Session.startUpdate, Traffic.start, traffic, h]
  rw [if_neg hne]

theorem after_begun {e : Exchange} {cause : Cause} {disk : Disk} {path : Option Text}
    {session : Session} {begun : Begun} {store : Store} {log : Log}
    (hstore : session.store = e.session.store)
    (hb : e.session.store.start disk path = (begun, store, log)) :
    e.after cause disk path (session.startUpdate disk path) =
      ⟨{ session with store := store },
        ⟨cause, disk, path, .ofBegun store.generation begun⟩ :: e.updates⟩ := by
  rw [after_start hstore]
  simp only [Traffic.start, traffic, hb]

theorem path_of_reloadedBy {s : Store} {uri : Text} {d : Path} (h : s.reloadedBy uri = .ok (some d)) :
    s.snapshot.path = some d := by
  rw [Store.reloadedBy] at h
  split at h
  · cases h
  next directory hp =>
    split at h
    · cases h
    · split at h
      · cases h
      · cases h
      · simp only [Except.ok.injEq] at h
        split at h
        · cases h
          exact hp
        · cases h

/-- A source of the snapshot has its directory read again when it is saved. -/
theorem reloadedBy_source {s : Store} {text : Text} {uri : Uri} {file : Text} {d : Path}
    (hd : s.snapshot.path = some d) (hu : Uri.ofText text = .ok uri) (hf : uri.filePath? = some file)
    (hne : file ≠ []) (hparent : (Path.ofText file).parent = d)
    (hname : [snippetsName, profilesName].contains (Path.ofText file).stem) :
    s.reloadedBy text = .ok (some d) := by
  cases file with
  | nil => exact absurd rfl hne
  | cons c rest =>
    simp only [Store.reloadedBy, hd, hu, hf, hparent, hname, decide_true, Bool.and_true, if_true]

/-- The directory of the snapshot is read again from the path that it is written as. -/
theorem save_source (e : Exchange) (disk : Disk) {uri : Text} {d : Path}
    (h : e.session.store.reloadedBy uri = .ok (some d)) :
    e.save disk uri = e.after .save disk (some d.toText) (e.session.startUpdate disk (some d.toText)) := by
  simp only [save, Store.startSaved, h, path_of_reloadedBy h, Option.map_some]
  rfl

/-- A saved file either begins no update, or one of the directory of the snapshot. -/
theorem save_cases (e : Exchange) (disk : Disk) (uri : Text) :
    e.save disk uri = e ∨ ∃ d, e.session.store.snapshot.path = some d ∧
      e.save disk uri = e.after .save disk (some d.toText) (e.session.startUpdate disk (some d.toText)) := by
  cases hr : e.session.store.reloadedBy uri with
  | error why =>
    simp only [save, Store.startSaved, hr]
    exact .inl (after_same e.session rfl)
  | ok reloaded =>
    cases reloaded with
    | none =>
      simp only [save, Store.startSaved, hr]
      exact .inl (after_same e.session rfl)
    | some d => exact .inr ⟨d, path_of_reloadedBy hr, e.save_source disk hr⟩

/-! ## Steps that begin an update -/

theorem Step.setPath_begun (readers : Readers) {e : Exchange} {disk : Disk} {path : Option Text}
    {begun : Begun} {store : Store} {log : Log}
    (hb : e.session.store.start disk path = (begun, store, log)) :
    Step readers e
      ⟨{ e.session with
          settings := { e.session.settings with extensionsPath := path }
          store := store },
        ⟨.request, disk, path, .ofBegun store.generation begun⟩ :: e.updates⟩ := by
  have step := @Step.setPath readers e disk path
  rwa [Exchange.setPath, Session.startPath, after_begun (by exact rfl) hb] at step

theorem Step.save_begun (readers : Readers) {e : Exchange} {disk : Disk} {uri : Text} {d : Path}
    {begun : Begun} {store : Store} {log : Log} (hs : e.session.store.reloadedBy uri = .ok (some d))
    (hb : e.session.store.start disk (some d.toText) = (begun, store, log)) :
    Step readers e
      ⟨{ e.session with store := store },
        ⟨.save, disk, some d.toText, .ofBegun store.generation begun⟩ :: e.updates⟩ := by
  have step := @Step.save readers e disk uri
  rwa [e.save_source disk hs, after_begun rfl hb] at step

/-- A session goes on as its store does. -/
theorem run_of_advances {readers : Readers} {session : Session} {updates : List Update} {t : Traffic}
    (h : ReflTransGen (Traffic.Advance readers) ⟨session.store, updates⟩ t) :
    ReflTransGen (Step readers) ⟨session, updates⟩ ⟨{ session with store := t.store }, t.updates⟩ := by
  induction h with
  | refl => exact .refl
  | tail _ ha ih => exact ih.tail (.advance ha)

/-- A directory that can be read is read, and what it brought is taken in. -/
theorem run_finish {readers : Readers} {session : Session} {before after : List Update} {u : Update}
    {load : Load} {loaded : Snapshot × List Problem} (tree : Tree) (hu : u.progress = .reading load)
    (hl : Extensions.load readers tree load.directory load.generation = .ok loaded)
    (hle : session.store.snapshot.generation ≤ load.generation) :
    ReflTransGen (Step readers) ⟨session, before ++ u :: after⟩
      ⟨{ session with store := { session.store with snapshot := loaded.1 } },
        before ++ u.reached (.finished loaded.1) :: after⟩ := by
  have run := @Traffic.run_finish readers session.store before after u load loaded tree hu hl
  rw [Store.commit_of_le (by rwa [(load_target hl).1])] at run
  exact run_of_advances run

/-! ## Requests with nothing in between -/

/-- What is left to do of a request leads to where its steps lead. -/
theorem run_andComplete (host : Host) (e : Exchange) (cause : Cause) (path : Option Text) {session : Session}
    (hstore : session.store = e.session.store) :
    ∃ updates, ReflTransGen (Step host.readers)
      (e.after cause host.disk path (session.startUpdate host.disk path))
      ⟨(Session.andComplete host (session.startUpdate host.disk path)).2.1, updates⟩ := by
  cases hb : e.session.store.start host.disk path with
  | mk begun rest =>
    obtain ⟨store, log⟩ := rest
    obtain ⟨u, run⟩ := @Traffic.run_complete host.readers store [] e.updates
      ⟨cause, host.disk, path, .ofBegun store.generation begun⟩ _ begun host.disk rfl
    rw [after_begun hstore hb, Session.startUpdate, hstore, hb]
    exact ⟨_, @run_of_advances host.readers { session with store := store } _ _ run⟩

theorem run_applySettings (host : Host) (e : Exchange) (settings : Settings) {session : Session}
    (hstore : session.store = e.session.store) :
    ∃ updates, ReflTransGen (Step host.readers)
      (e.after .request host.disk settings.extensionsPath (session.startSettings host.disk settings))
      ⟨(session.applySettings host settings).2.1, updates⟩ := by
  rw [Session.applySettings, Session.startSettings]
  split
  · exact run_andComplete host e .request settings.extensionsPath hstore
  · rw [after_same { session with settings := settings } hstore]
    exact ⟨e.updates, .refl⟩

theorem initialise_snd (host : Host) (options : Value) (s : Session) :
    (s.initialise host options).2.1 =
      (Session.applySettings host (.ofValue options) { s with workspace := some .empty }).2.1 := by
  rw [Session.initialise]
  split <;> next h => rw [h]

theorem save_snd (host : Host) (uri : Text) (s : Session) :
    (s.save host uri).2.1 = { s with store := (s.store.saved host.readers host.disk uri).2.1 } := by
  simp only [Session.save, Session.saveHooks, SaveHook.notifyAll, SaveHook.notify, Session.reloadHook]
  cases (s.store.saved host.readers host.disk uri).1 <;> rfl

/-- **Every request is a run of the session** when nothing comes in between, and so is
what a saved file calls for. -/
theorem run_of_request (host : Host) (e : Exchange) :
    (∀ options, ∃ updates,
      ReflTransGen (Step host.readers) e ⟨(e.session.initialise host options).2.1, updates⟩) ∧
    (∀ sent, ∃ updates,
      ReflTransGen (Step host.readers) e ⟨(e.session.configure host sent).2.1, updates⟩) ∧
    (∀ path, ∃ updates,
      ReflTransGen (Step host.readers) e ⟨(e.session.setPath host path).2.1, updates⟩) ∧
    (∀ uri, ∃ updates, ReflTransGen (Step host.readers) e ⟨(e.session.save host uri).2.1, updates⟩) := by
  refine ⟨fun options => ?_, fun sent => ?_, fun path => ?_, fun uri => ?_⟩
  · obtain ⟨updates, run⟩ := @run_applySettings host e (.ofValue options)
      { e.session with workspace := some .empty } rfl
    rw [initialise_snd]
    exact ⟨updates, .head (.initialise host.disk options) run⟩
  · obtain ⟨updates, run⟩ := @run_applySettings host e (Session.configuredSettings sent) e.session rfl
    exact ⟨updates, .head (.configure host.disk sent) run⟩
  · obtain ⟨updates, run⟩ := @run_andComplete host e .request path
      { e.session with settings := { e.session.settings with extensionsPath := path } } rfl
    exact ⟨updates, .head (.setPath host.disk path) run⟩
  · rw [save_snd, Store.saved, Store.startSaved]
    cases hr : e.session.store.reloadedBy uri with
    | error why => exact ⟨e.updates, .refl⟩
    | ok reloaded =>
      cases reloaded with
      | none => exact ⟨e.updates, .refl⟩
      | some d =>
        obtain ⟨updates, run⟩ := @run_andComplete host e .save (some d.toText) e.session rfl
        rw [← e.save_source host.disk hr] at run
        exact ⟨updates, .head (.save host.disk uri) run⟩

/-! ## What every step keeps -/

theorem inv_start : Inv start := ⟨Traffic.inv_init false true, rfl⟩

/-- An update keeps the invariant when a request names its path in the settings, and when
a saved file leaves them as they are. -/
theorem Inv.after_start {e : Exchange} (h : Inv e) {cause : Cause} (disk : Disk) {path : Option Text}
    {session : Session} (hstore : session.store = e.session.store)
    (hpath : session.settings.extensionsPath =
      match cause with
      | .request => path
      | .save => e.session.settings.extensionsPath) :
    Inv (e.after cause disk path (session.startUpdate disk path)) := by
  rw [Exchange.after_start hstore]
  refine ⟨h.traffic.start cause disk path, ?_⟩
  cases cause with
  | request => exact hpath.symm
  | save => exact h.settings.trans hpath.symm

theorem Inv.startSettings {e : Exchange} (h : Inv e) (disk : Disk) (settings : Settings) {session : Session}
    (hstore : session.store = e.session.store) (hset : session.settings = e.session.settings) :
    Inv (e.after .request disk settings.extensionsPath (session.startSettings disk settings)) := by
  rw [Session.startSettings]
  split
  · exact h.after_start disk hstore rfl
  next hsame =>
    rw [after_same { session with settings := settings } hstore]
    rw [hset] at hsame
    have hpath : settings.extensionsPath = e.session.settings.extensionsPath := by simpa using hsame
    refine ⟨?_, h.settings.trans hpath.symm⟩
    rw [Exchange.traffic, hstore]
    exact h.traffic

theorem lastRequest?_reached (before after : List Update) (u : Update) (progress : Progress) :
    (lastRequest? (before ++ u.reached progress :: after)).bind (·.path) =
      (lastRequest? (before ++ u :: after)).bind (·.path) := by
  simp only [lastRequest?, List.find?_append, List.find?_cons]
  cases before.find? (·.cause == .request) with
  | some v => rfl
  | none =>
    have hcause : (u.reached progress).cause = u.cause := rfl
    rw [hcause]
    cases u.cause == .request <;> rfl

theorem lastRequest?_advance {readers : Readers} {t t' : Traffic} (h : Traffic.Advance readers t t') :
    (lastRequest? t'.updates).bind (·.path) = (lastRequest? t.updates).bind (·.path) := by
  cases h with
  | read tree hu => exact lastRequest?_reached _ _ _ _
  | commit hu => exact lastRequest?_reached _ _ _ _

theorem Inv.step {readers : Readers} {e e' : Exchange} (h : Inv e) (hs : Step readers e e') : Inv e' := by
  cases hs with
  | initialise disk options => exact h.startSettings disk _ rfl rfl
  | configure disk sent => exact h.startSettings disk _ rfl rfl
  | setPath disk path => exact h.after_start disk rfl rfl
  | save disk uri =>
    obtain hsame | ⟨d, -, hsave⟩ := e.save_cases disk uri
    · rwa [hsame]
    · rw [hsave]
      exact h.after_start disk rfl rfl
  | advance ha => exact ⟨h.traffic.advance ha, (lastRequest?_advance ha).trans h.settings⟩

theorem Reachable.inv {readers : Readers} {e : Exchange} (h : Reachable readers e) : Inv e := by
  induction h with
  | refl => exact inv_start
  | tail _ hs ih => exact ih.step hs

theorem Inv.snapshot_le {e : Exchange} (h : Inv e) :
    e.session.store.snapshot.generation ≤ e.session.store.generation := by
  have hnum := h.traffic.numbered.latest_generation
  rwa [← h.traffic.snapshot, ← h.traffic.generation] at hnum

/-- A path of a directory is applied, and the directory read, with nothing in between. -/
theorem run_setPath {readers : Readers} {e : Exchange} (h : Inv e) {disk : Disk} {path : Option Text}
    {d : Path} {loaded : Snapshot × List Problem} (hd : directory? disk path = some d)
    (hl : load readers disk.tree d (e.session.store.generation + 1) = .ok loaded) :
    ReflTransGen (Step readers) e
      ⟨{ e.session with
          settings := { e.session.settings with extensionsPath := path }
          store := { e.session.store with
            generation := e.session.store.generation + 1, snapshot := loaded.1 } },
        ⟨.request, disk, path, .finished loaded.1⟩ :: e.updates⟩ := by
  have step := Step.setPath_begun readers (e.session.store.start_of_directory hd)
  exact (ReflTransGen.single step).trans
    (@run_finish readers _ [] e.updates _ _ loaded disk.tree rfl hl (Nat.le_succ_of_le h.snapshot_le))

/-- **A replaced directory comes back.** When a source of the snapshot is saved while the
directory that a request has named is still being read, the snapshot can end up with the
directory that was replaced, and no load is left in flight that could change it again. -/
theorem replaced_returns {readers : Readers} {e : Exchange} (h : Inv e) {disk : Disk} {uri : Text}
    {path : Option Text} {replaced named : Path} {loaded reloaded : Snapshot × List Problem}
    (hs : e.session.store.reloadedBy uri = .ok (some replaced))
    (hr : directory? disk (some replaced.toText) = some replaced)
    (hn : directory? disk path = some named)
    (hloaded : load readers disk.tree named (e.session.store.generation + 1) = .ok loaded)
    (hreloaded : load readers disk.tree replaced (e.session.store.generation + 2) = .ok reloaded) :
    ReflTransGen (Step readers) e
      ⟨{ e.session with
          settings := { e.session.settings with extensionsPath := path }
          store := { e.session.store with
            generation := e.session.store.generation + 2, snapshot := reloaded.1 } },
        ⟨.save, disk, some replaced.toText, .finished reloaded.1⟩ ::
          ⟨.request, disk, path, .finished loaded.1⟩ :: e.updates⟩ := by
  let session : Session := { e.session with
    settings := { e.session.settings with extensionsPath := path }
    store := { e.session.store with generation := e.session.store.generation + 1 } }
  let asked : Update := ⟨.request, disk, path, .reading ⟨named, e.session.store.generation + 1⟩⟩
  let both : Session := { session with
    store := { e.session.store with generation := e.session.store.generation + 2 } }
  let again : Update :=
    ⟨.save, disk, some replaced.toText, .reading ⟨replaced, e.session.store.generation + 2⟩⟩
  have naming : Step readers e ⟨session, asked :: e.updates⟩ :=
    Step.setPath_begun readers (e.session.store.start_of_directory hn)
  have saving : Step readers ⟨session, asked :: e.updates⟩ ⟨both, again :: asked :: e.updates⟩ :=
    @Step.save_begun readers ⟨session, asked :: e.updates⟩ disk uri replaced _ _ _ hs
      (session.store.start_of_directory hr)
  -- The named directory ends first. Had it ended last, it would not have been taken in, as
  -- the reload is of a later generation.
  have ending := @run_finish readers both [again] e.updates asked _ loaded disk.tree rfl hloaded
    (Nat.le_succ_of_le h.snapshot_le)
  have returning := @run_finish readers { both with store := { both.store with snapshot := loaded.1 } } []
    (asked.reached (.finished loaded.1) :: e.updates) again _ reloaded disk.tree rfl hreloaded
    (by
      show loaded.1.generation ≤ e.session.store.generation + 2
      rw [(load_target hloaded).1]
      exact Nat.le_succ _)
  exact ((((ReflTransGen.single naming).tail saving).trans ending).trans returning)

/-! ## When nothing is in flight -/

theorem appliedDirectory_eq {e : Exchange} (h : Inv e) :
    e.appliedDirectory = (lastRequest? e.updates).bind Update.directory := by
  have hs := h.settings
  rw [appliedDirectory]
  cases hr : lastRequest? e.updates with
  | none => rfl
  | some u =>
    rw [hr, Option.bind_some] at hs
    rw [Option.bind_some, Option.bind_some, ← hs, Update.directory]

theorem built?_of_isFailed {u : Update} (h : u.isFailed = true) : u.progress.built? = none := by
  cases hb : u.progress.built? with
  | none => rfl
  | some built =>
    rw [Update.isFailed, Traffic.target?_of_built? hb] at h
    cases h

/-- The snapshot is of the directory that the last unfailed update read. -/
theorem latest_path {updates : List Update} (hn : Traffic.Numbered updates)
    (hq : ∀ u ∈ updates, ¬ u.InFlight) :
    (Traffic.latest updates).path = (lastUnfailed? updates).bind Update.directory := by
  induction updates with
  | nil => rfl
  | cons u older ih =>
    have hrest := ih hn.2 fun v hv => hq v (List.mem_cons_of_mem u hv)
    rw [lastUnfailed?, List.find?_cons]
    cases hf : u.isFailed with
    | true =>
      rw [Traffic.latest_cons_of_none (built?_of_isFailed hf)]
      exact hrest
    | false =>
      cases hb : u.progress.built? with
      | none => exact absurd ⟨hb, hf⟩ (hq u (by simp))
      | some built =>
        rw [Traffic.latest_cons_of_some hb]
        have htarget := hn.1 _ (Traffic.target?_of_built? hb)
        rw [Prod.mk.injEq] at htarget
        exact htarget.2

theorem quiet_of_finished {session : Session} {updates : List Update} (h : ∀ u ∈ updates, u.Finished) :
    Quiet ⟨session, updates⟩ := by
  intro u hu hf
  obtain ⟨built, hb⟩ := h u hu
  rw [Update.InFlight, hb] at hf
  cases hf.1

theorem served_of_finished {session : Session} {updates : List Update} (h : ∀ u ∈ updates, u.Finished) :
    Served ⟨session, updates⟩ := by
  intro u hu _
  obtain ⟨built, hb⟩ := h u hu
  rw [Update.isFailed, hb]
  rfl

/-- Nothing but failed updates and saved files lie between the last unfailed update and
the last request. -/
theorem lastRequest?_of_lastUnfailed {updates : List Update}
    (hs : ∀ u ∈ updates, u.cause = .request → u.isFailed = false) :
    (lastUnfailed? updates = none ∧ lastRequest? updates = none) ∨
    ∃ u older, lastUnfailed? updates = some u ∧ u :: older <:+ updates ∧
      lastRequest? updates = lastRequest? (u :: older) := by
  induction updates with
  | nil => exact .inl ⟨rfl, rfl⟩
  | cons u older ih =>
    cases hf : u.isFailed with
    | false => exact .inr ⟨u, older, by simp [lastUnfailed?, hf], List.suffix_refl _, rfl⟩
    | true =>
      have hcause : (u.cause == .request) = false := by
        rw [beq_eq_false_iff_ne]
        intro hc
        rw [hs u (by simp) hc] at hf
        cases hf
      have hreq : lastRequest? (u :: older) = lastRequest? older := by
        rw [lastRequest?, List.find?_cons, hcause, lastRequest?]
      have hunf : lastUnfailed? (u :: older) = lastUnfailed? older := by
        rw [lastUnfailed?, List.find?_cons, hf, lastUnfailed?]
        rfl
      rw [hreq, hunf]
      obtain h | ⟨v, rest, hv, hsuf, hr⟩ := ih fun v hv => hs v (List.mem_cons_of_mem u hv)
      · exact .inl h
      · exact .inr ⟨v, rest, hv, hsuf.trans (List.suffix_cons u older), hr⟩

theorem Faithful.of_suffix {updates rest : List Update} (h : Faithful updates) (hs : rest <:+ updates) :
    Faithful rest := by
  induction updates with
  | nil => rwa [List.suffix_nil.1 hs]
  | cons u older ih =>
    rcases List.suffix_cons_iff.1 hs with rfl | hs
    · exact h
    · exact ih h.2 hs

/-- **When the snapshot belongs to the settings.** Once no load is in flight and no
request has failed, the snapshot is of the directory that the path of the settings named
when it was applied last, exactly when the last update that has not failed does not come
from a saved file that had another directory read. So it is when every saved file had the
directory read that had been applied last. -/
theorem belongs_iff_reload {readers : Readers} {e : Exchange} (h : Reachable readers e) (hq : e.Quiet)
    (hs : e.Served) :
    (e.session.store.snapshot.path = e.appliedDirectory ↔
      ∀ u, lastUnfailed? e.updates = some u → u.cause = .save → u.directory = e.appliedDirectory) ∧
    (Faithful e.updates → e.session.store.snapshot.path = e.appliedDirectory) := by
  have hi := h.inv
  have hpath : e.session.store.snapshot.path = (lastUnfailed? e.updates).bind Update.directory :=
    (congrArg Snapshot.path hi.traffic.snapshot).trans (latest_path hi.traffic.numbered hq)
  have happlied := appliedDirectory_eq hi
  have belongs : e.session.store.snapshot.path = e.appliedDirectory ↔
      ∀ u, lastUnfailed? e.updates = some u → u.cause = .save → u.directory = e.appliedDirectory := by
    rw [hpath]
    obtain ⟨hu, hr⟩ | ⟨u, older, hu, -, hr⟩ := lastRequest?_of_lastUnfailed hs
    · simp [hu, hr, happlied]
    · rw [hu, Option.bind_some]
      constructor
      · rintro heq v ⟨⟩ -
        exact heq
      · intro hall
        cases hc : u.cause with
        | save => exact hall u rfl hc
        | request =>
          have hreq : lastRequest? (u :: older) = some u := by simp [lastRequest?, hc]
          rw [happlied, hr, hreq, Option.bind_some]
  refine ⟨belongs, fun hf => belongs.2 fun u hu hc => ?_⟩
  obtain ⟨hnone, -⟩ | ⟨v, older, hv, hsuf, hr⟩ := lastRequest?_of_lastUnfailed hs
  · rw [hnone] at hu
    cases hu
  · rw [hu] at hv
    cases hv
    have hreq : lastRequest? (u :: older) = lastRequest? older := by simp [lastRequest?, hc]
    rw [happlied, hr, hreq]
    exact (hf.of_suffix hsuf).1 hc

/-- The settings name `/b`, and a file of `/a` is saved before `/b` has been read. -/
theorem belongs_iff_reload_overtaken :
    ∃ e, Reachable Readers.standard e ∧ e.Quiet ∧ e.Served ∧
      e.session.settings.extensionsPath = some ['/', 'b'] ∧
      e.session.store.snapshot.path = some ⟨.single, [['a']]⟩ ∧
      e.session.store.snapshot.path ≠ e.appliedDirectory := by
  let readers := Readers.standard
  let disk := Traffic.plainDisk
  let a : Path := ⟨.single, [['a']]⟩
  let b : Path := ⟨.single, [['b']]⟩
  let brought (n : Nat) (d : Path) := snapshotOf n d {} {}
  have readA := @load_of_missing disk.tree a readers rfl rfl
  have readB := @load_of_missing disk.tree b readers rfl rfl
  have hasA : directory? disk (some ['/', 'a']) = some a := by decide
  have hasB : directory? disk (some ['/', 'b']) = some b := by decide
  have source : ∀ s : Store, s.snapshot.path = some a →
      s.reloadedBy "file:///a/snippets.json".toList = .ok (some a) := fun s hs =>
    @reloadedBy_source s _ ⟨"file".toList, [], "/a/snippets.json".toList⟩ "/a/snippets.json".toList a hs
      rfl (by decide +kernel) (by decide) (by decide) (by decide)
  have applied := @run_setPath readers start inv_start disk (some ['/', 'a']) a _ hasA (readA 1)
  have reached := applied.trans (@replaced_returns readers _ (Reachable.inv applied) disk _
    (some ['/', 'b']) a b _ _ (source _ rfl) hasA hasB (readB 2) (readA 3))
  have ended : ∀ u ∈ [(⟨.save, disk, some ['/', 'a'], .finished (brought 3 a)⟩ : Update),
      ⟨.request, disk, some ['/', 'b'], .finished (brought 2 b)⟩,
      ⟨.request, disk, some ['/', 'a'], .finished (brought 1 a)⟩], u.Finished := by
    intro u hu
    simp only [List.mem_cons, List.not_mem_nil, or_false] at hu
    obtain rfl | rfl | rfl := hu <;> exact ⟨_, rfl⟩
  refine ⟨_, reached, quiet_of_finished ended, served_of_finished ended, rfl, rfl, fun heq => ?_⟩
  have same : directory? disk (some ['/', 'a']) = directory? disk (some ['/', 'b']) :=
    (belongs_iff_reload reached (quiet_of_finished ended) (served_of_finished ended)).1.1 heq _ rfl rfl
  rw [hasA, hasB] at same
  simp [a, b] at same

/-- The settings name a directory whose name ends in a blank, and its snapshot is gone
after a file of it was saved: the reload trims the name. -/
theorem belongs_not_always :
    ¬ ∀ e, Reachable Readers.standard e → e.Quiet → e.Served →
      e.session.store.snapshot.path = e.appliedDirectory := by
  intro claim
  let disk : Disk := { Traffic.plainDisk with tree := ⟨.ofList [([['d', ' ']], .directory)]⟩ }
  let d : Path := ⟨.single, [['d', ' ']]⟩
  let path : Text := ['/', 'd', ' ', '/']
  let brought := snapshotOf 1 d {} {}
  let applied : Session := { Session.start with
    settings := { Settings.default with extensionsPath := some path }
    store := { Store.init false true with generation := 1, snapshot := brought } }
  let asked : Update := ⟨.request, disk, some path, .finished brought⟩
  let again : Update := ⟨.save, disk, some d.toText, .finished (.builtin 2)⟩
  have hasD : directory? disk (some path) = some d := by decide
  have first : ReflTransGen (Step Readers.standard) start ⟨applied, [asked]⟩ :=
    @run_setPath Readers.standard start inv_start disk (some path) d _ hasD
      (@load_of_missing disk.tree d _ rfl rfl 1)
  have source : applied.store.reloadedBy "file:///d%20/snippets.json".toList = .ok (some d) :=
    @reloadedBy_source _ _ ⟨"file".toList, [], "/d%20/snippets.json".toList⟩ "/d /snippets.json".toList d rfl
      rfl (by decide +kernel) (by decide) (by decide) (by decide)
  obtain ⟨log, gone⟩ := @Store.start_of_settled applied.store disk (some d.toText) (by decide)
  have second := @Step.save_begun Readers.standard ⟨applied, [asked]⟩ disk _ d _ _ _ source gone
  have ended : ∀ u ∈ [again, asked], u.Finished := by
    intro u hu
    simp only [List.mem_cons, List.not_mem_nil, or_false] at hu
    obtain rfl | rfl := hu <;> exact ⟨_, rfl⟩
  have same : none = directory? disk (some path) :=
    claim _ (first.tail second) (quiet_of_finished ended) (served_of_finished ended)
  rw [hasD] at same
  cases same

end Exchange

end Shorthand.Server
