/-
A session of the server: the settings of its client, the store of extensions, and the
workspace once there is one. An update of the store that has to read a directory begins
with one function and is completed by another, and other requests may come in between.
-/
import Shorthand.Extensions.Store
import Shorthand.Server.AbbreviationSupport
import Shorthand.Server.Capability
import Shorthand.Server.SaveHook

namespace Shorthand.Server

open Data Extensions Files

structure Session where
  settings : Settings
  store : Store
  /-- None before the client has initialised the session. -/
  workspace : Option Workspace
  /-- Whether requests are handed to capabilities. -/
  hasCapabilities : Bool

namespace Session

/-- A session with the default settings and an empty store. -/
def start : Session where
  settings := .default
  store := .init false true
  workspace := none
  hasCapabilities := true

/-! ## Extensions and settings -/

/-- Begins an update of the store. -/
def startUpdate (disk : Disk) (path : Option Text) (s : Session) : Begun × Session × Log :=
  let (begun, store, log) := s.store.start disk path
  (begun, { s with store := store }, log)

/-- What is left to do of an update that has begun. -/
def completeUpdate (host : Host) (begun : Begun) (s : Session) :
    Except StoreFault Unit × Session × Log :=
  let (result, store, log) := s.store.complete host.readers host.disk begun
  (result, { s with store := store }, log)

/-- Completes what a first step has begun. -/
def andComplete (host : Host) (first : Begun × Session × Log) :
    Except StoreFault Unit × Session × Log :=
  let (begun, s, log) := first
  let (result, s, more) := s.completeUpdate host begun
  (result, s, log ++ more)

/-- Updates the store, whatever the settings are. -/
def update (host : Host) (path : Option Text) (s : Session) :
    Except StoreFault Unit × Session × Log :=
  andComplete host (s.startUpdate host.disk path)

/-- Takes settings over, and begins an update when they name another directory. -/
def startSettings (disk : Disk) (settings : Settings) (s : Session) : Begun × Session × Log :=
  let moved := settings.extensionsPath != s.settings.extensionsPath
  let s := { s with settings := settings }
  if moved then s.startUpdate disk settings.extensionsPath else (.settled, s, [])

def applySettings (host : Host) (settings : Settings) (s : Session) :
    Except StoreFault Unit × Session × Log :=
  andComplete host (s.startSettings host.disk settings)

/-- Makes `path` the directory of the settings, and begins an update. -/
def startPath (disk : Disk) (path : Option Text) (s : Session) : Begun × Session × Log :=
  { s with settings := { s.settings with extensionsPath := path } }.startUpdate disk path

def setPath (host : Host) (path : Option Text) (s : Session) :
    Except StoreFault Unit × Session × Log :=
  andComplete host (s.startPath host.disk path)

/-- What is reported when a session has been initialised. -/
def welcome (s : Session) : Log :=
  match s.settings.extensionsPath with
  | none | some [] => []
  | some path => [⟨.info, "Emmet extensions path: ".toList ++ path⟩]

/-- Makes an empty workspace and takes over the settings that a client sent. -/
def initialise (host : Host) (options : Value) (s : Session) :
    Except StoreFault Unit × Session × Log :=
  match applySettings host (.ofValue options) { s with workspace := some .empty } with
  | (.ok (), s, log) => (.ok (), s, log ++ s.welcome)
  | (.error why, s, log) => (.error why, s, log)

/-- The settings in a change of configuration: under the key of the server, or else all
that was sent. -/
def configuredSettings (sent : Value) : Settings :=
  let sent := sent.mapping?.getD {}
  .ofValue ((sent.get? (.text "emmet".toList)).getD (.ofMapping sent))

def configure (host : Host) (sent : Value) (s : Session) :
    Except StoreFault Unit × Session × Log :=
  s.applySettings host (configuredSettings sent)

/-- Loads the extensions again when one of their sources was saved. -/
def reloadHook (host : Host) : SaveHook Session where
  name := some "_on_source_saved".toList
  run uri s :=
    let (result, store, log) := s.store.saved host.readers host.disk uri
    (result.mapError StoreFault.failure, { s with store := store }, log)

/-- The hooks of a server. -/
def saveHooks (host : Host) : List (SaveHook Session) := [reloadHook host]

/-- Tells the hooks that a document was saved. -/
def save (host : Host) (uri : Text) (s : Session) : Except Unreported Unit × Session × Log :=
  SaveHook.notifyAll uri (saveHooks host) s

/-! ## Documents -/

/-- The workspace changed by `change`. -/
def withWorkspace (s : Session) (change : Workspace → Except InvalidUri Workspace) :
    Except RequestFault Session :=
  match s.workspace with
  | none => .error .noWorkspace
  | some workspace => match change workspace with
    | .error why => .error (.invalidUri why)
    | .ok workspace => .ok { s with workspace := some workspace }

def openDocument (document : Document) (s : Session) : Except RequestFault Session :=
  s.withWorkspace (·.put document)

def closeDocument (uri : Text) (s : Session) : Except RequestFault Session :=
  s.withWorkspace fun w => .ok (w.close uri)

def source (s : Session) (uri : Text) : Except RequestFault Source :=
  match s.workspace with
  | none => .error .noWorkspace
  | some workspace => (workspace.source uri).mapError .invalidUri

/-! ## Completion and expansion -/

/-- Whether there can be completions in a document: expansion is on, and the document
has a dialect. -/
def applies (s : Session) (uri : Text) : Except RequestFault Bool := do
  if !s.settings.expansionEnabled then return false
  return (← dialectOf s.settings (← s.source uri)).isSome

/-- What completion at a cursor is about. -/
def completionTarget (host : Host) (s : Session) (cursor : Cursor) :
    Except RequestFault (Option Completion.Target) := do
  Server.completionTarget host s.settings s.store.snapshot (← s.source cursor.uri) cursor.position

/-- The items at a cursor, and what the engine expands for them. -/
def items (host : Host) (s : Session) (cursor : Cursor) :
    Except RequestFault (List Item) × List Text :=
  match s.completionTarget host cursor with
  | .error why => (.error why, [])
  | .ok target => (.ok (itemsFor host s.settings target), itemTexts s.settings target)

/-- The edit that expands the abbreviation before a position, and what the engine expands
for it. -/
def edit? (host : Host) (s : Session) (source : Source) (position : Position) :
    Except RequestFault (Option Edit) × List Text :=
  match expansionTarget host s.settings s.store.snapshot source position with
  | .error why => (.error why, [])
  | .ok target => (.ok (editFor host target), editTexts target)

/-- The capability that completes and expands abbreviations. Its state is the list of
what the engine has been asked to expand. -/
def abbreviationCapability (host : Host) (s : Session) : Capability (List Text) where
  name := "emmet_completion".toList
  register texts := texts
  applies cursor texts := ((s.applies cursor.uri).mapError RequestFault.failure, texts)
  complete := some fun cursor texts =>
    let (items, more) := s.items host cursor
    (items.mapError RequestFault.failure, texts ++ more)
  expandAt := some fun source position texts =>
    let (edit, more) := s.edit? host source position
    (edit.mapError RequestFault.failure, texts ++ more)

def capabilities (host : Host) (s : Session) : Capabilities (List Text) :=
  .ofList [s.abbreviationCapability host]

/-- The completions at a cursor, and what the engine expands for them. -/
def complete (host : Host) (s : Session) (cursor : Cursor) : Completions × List Text × Log :=
  if s.hasCapabilities then (s.capabilities host).complete cursor [] else (⟨false, []⟩, [], [])

/-- The edit at a position of a source, and what the engine expands for it. -/
def expand (host : Host) (s : Session) (source : Source) (position : Position) :
    Option Edit × List Text × Log :=
  (s.capabilities host).expand source position []

end Session

end Shorthand.Server
