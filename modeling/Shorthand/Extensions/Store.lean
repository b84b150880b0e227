/-
The store of the current snapshot. Each update takes the next generation when it begins
and replaces the snapshot when it ends; in between a directory may be read, while other
updates begin and end. A snapshot never gives way to one of an earlier generation.
-/
import Shorthand.Extensions.Load
import Shorthand.Files.Uri

namespace Shorthand.Extensions

open Files

structure Store where
  generation : Nat
  snapshot : Snapshot
  /-- Whether each load is reported. -/
  verbose : Bool
  /-- Whether anybody listens to the log. -/
  attached : Bool

/-- A load in flight. -/
structure Load where
  directory : Path
  generation : Nat
  deriving DecidableEq, Repr

/-- Why an update ends without a snapshot. -/
inductive StoreFault where
  | unknownUser (who : UnknownUser)
  | load (why : LoadFault)
  | uri (why : InvalidUri)
  deriving DecidableEq, Repr

def StoreFault.failure : StoreFault → Failure
  | .unknownUser _ =>
    ⟨"RuntimeError".toList, some "Could not determine home directory.".toList⟩
  | .load why => why.failure
  | .uri why => ⟨"ValueError".toList, some why.message⟩

/-- How far an update gets before it has to wait. -/
inductive Begun where
  /-- The store holds the defaults. -/
  | settled
  | reading (load : Load)
  | failed (why : StoreFault)
  deriving DecidableEq, Repr

namespace Store

def init (verbose attached : Bool) : Store where
  generation := 0
  snapshot := .builtin 0
  verbose := verbose
  attached := attached

/-- What is logged when somebody listens. -/
def log (s : Store) (entries : Log) : Log := if s.attached then entries else []

/-- Takes a snapshot in, unless a newer one is there; says whether it did. -/
def commit (s : Store) (snapshot : Snapshot) : Store × Bool :=
  if snapshot.generation < s.snapshot.generation then (s, false)
  else ({ s with snapshot := snapshot }, true)

/-- Begins an update. Nothing, a blank text and a path that is no absolute directory go
back to the defaults at once. -/
def start (disk : Disk) (path : Option Text) (s : Store) : Begun × Store × Log :=
  let generation := s.generation + 1
  let s := { s with generation := generation }
  let reset := (s.commit (.builtin generation)).1
  let raw := Text.trim (path.getD [])
  if raw.isEmpty then (.settled, reset, [])
  else match disk.expandHome (Path.ofText raw) with
    | .error who => (.failed (.unknownUser who), s, [])
    | .ok directory =>
      if directory.isAbsolute && disk.tree.isTooLong directory then
        (.failed (.load (.nameTooLong directory)), s, [])
      else if directory.isAbsolute && disk.tree.isDirectory directory then
        (.reading ⟨directory, generation⟩, s, [])
      else
        (.settled, reset, s.log [⟨.warning, "Emmet extensions path ".toList ++ raw ++
          " is not an absolute directory".toList⟩])

/-- The number of custom snippets in a snapshot. -/
def snippetCount (snapshot : Snapshot) : Nat :=
  (snapshot.snippets.getD {}).entries.foldl (fun n e => n + e.2.size) 0

/-- Ends an update with what its load brought. -/
def finish (load : Load) (loaded : Snapshot × List Problem) (s : Store) : Store × Log :=
  let problems := loaded.2.map fun p => ⟨.error, p.message⟩
  let (s, taken) := s.commit loaded.1
  let report : Log :=
    if taken && s.verbose then
      [⟨.info, "Loaded ".toList ++ Text.ofNat (snippetCount loaded.1) ++
        " custom snippets from ".toList ++ load.directory.toText⟩]
    else []
  (s, s.log (problems ++ report))

/-- Reads the directory of a load and ends the update. -/
def finishFrom (readers : Readers) (disk : Disk) (load : Load) (s : Store) :
    Except StoreFault Unit × Store × Log :=
  match Extensions.load readers disk.tree load.directory load.generation with
  | .error why => (.error (.load why), s, [])
  | .ok loaded => let (s, log) := s.finish load loaded; (.ok (), s, log)

/-- What is left to do of an update that has begun. -/
def complete (readers : Readers) (disk : Disk) (begun : Begun) (s : Store) :
    Except StoreFault Unit × Store × Log :=
  match begun with
  | .settled => (.ok (), s, [])
  | .failed why => (.error why, s, [])
  | .reading load => s.finishFrom readers disk load

/-- An update with nothing in between. -/
def update (readers : Readers) (disk : Disk) (path : Option Text) (s : Store) :
    Except StoreFault Unit × Store × Log :=
  let (begun, s, log) := s.start disk path
  let (result, s, more) := s.complete readers disk begun
  (result, s, log ++ more)

/-- Begins updates one after the other. -/
def startAll (disk : Disk) : List (Option Text) → Store → List Begun × Store × Log
  | [], s => ([], s, [])
  | path :: paths, s =>
    let (begun, s, log) := s.start disk path
    let (others, s, more) := startAll disk paths s
    (begun :: others, s, log ++ more)

/-- Ends updates one after the other; the first fault is that of all. -/
def completeAll (readers : Readers) (disk : Disk) :
    List Begun → Store → Except StoreFault Unit × Store × Log
  | [], s => (.ok (), s, [])
  | begun :: others, s =>
    let (result, s, log) := s.complete readers disk begun
    let (rest, s, more) := completeAll readers disk others s
    (result.bind fun _ => rest, s, log ++ more)

/-- Updates of which all begin before the first one reads its directory. -/
def updateAll (readers : Readers) (disk : Disk) (paths : List (Option Text)) (s : Store) :
    Except StoreFault Unit × Store × Log :=
  let (begun, s, log) := s.startAll disk paths
  let (result, s, more) := s.completeAll readers disk begun
  (result, s, log ++ more)

/-- The directory to be loaded again when a file is saved: that of the snapshot, if the
file is one of its sources. -/
def reloadedBy (s : Store) (uri : Text) : Except StoreFault (Option Path) :=
  match s.snapshot.path with
  | none => .ok none
  | some directory => match Uri.ofText uri with
    | .error why => .error (.uri why)
    | .ok uri => match uri.filePath? with
      | none | some [] => .ok none
      | some file =>
        let saved := Path.ofText file
        .ok <| if saved.parent = directory && [snippetsName, profilesName].contains saved.stem then
          some directory else none

/-- Begins the update that a saved file calls for. -/
def startSaved (disk : Disk) (uri : Text) (s : Store) : Begun × Store × Log :=
  match s.reloadedBy uri with
  | .error why => (.failed why, s, [])
  | .ok none => (.settled, s, [])
  | .ok (some directory) => s.start disk (some directory.toText)

/-- Updates the store after a file was saved. -/
def saved (readers : Readers) (disk : Disk) (uri : Text) (s : Store) :
    Except StoreFault Unit × Store × Log :=
  let (begun, s, log) := s.startSaved disk uri
  let (result, s, more) := s.complete readers disk begun
  (result, s, log ++ more)

end Store

end Shorthand.Extensions
