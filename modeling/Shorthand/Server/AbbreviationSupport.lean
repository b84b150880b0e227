/-
Answers about the abbreviation before a cursor: its completion items, and the edit that
expands it. Expansion is asked for, so unlike completion it is neither switched off nor
held back as noise.
-/
import Shorthand.Extensions.Load
import Shorthand.Server.DocumentDialect
import Shorthand.Server.Item
import Shorthand.Server.Workspace

namespace Shorthand.Server

/-- What a server relies on: the readers of sources, the files, the backward scan for
abbreviations and the engine that expands them. -/
structure Host where
  readers : Extensions.Readers
  disk : Files.Disk
  scan : Abbreviation.Scanner
  engine : Expansion.Engine

/-- Why a request has no answer. -/
inductive RequestFault where
  | noWorkspace
  | invalidUri (why : Files.InvalidUri)
  | dialect (why : DialectFault)
  | source (why : SourceFault)
  | completion (why : Completion.Fault)
  deriving DecidableEq, Repr

/-- The word for the kind of a fault. -/
def RequestFault.kind : RequestFault → Text
  | .noWorkspace => "RuntimeError".toList
  | .invalidUri _ | .dialect (.uri _) | .completion (.unreadableCount _) |
    .source (.access .notName) => "ValueError".toList
  | .dialect (.language _) | .completion (.profileKey _) => "TypeError".toList
  | .source (.access .nameTooLong) => "OSError".toList
  | .source (.access .missing) => "FileNotFoundError".toList
  | .source (.access .isDirectory) => "IsADirectoryError".toList
  | .source (.access .notDirectory) => "NotADirectoryError".toList
  | .source (.access .denied) => "PermissionError".toList
  | .source .notText => "UnicodeDecodeError".toList

/-- The failure that is reported for a fault. -/
def RequestFault.failure (fault : RequestFault) : Failure := ⟨fault.kind, none⟩

/-- The dialect of a source, none when expansion is off for it. -/
def dialectOf (settings : Settings) (source : Source) : Except RequestFault (Option Text) :=
  (documentDialect settings source.uri source.languageId).mapError .dialect

/-- The document of a source. -/
def readDocument (host : Host) (source : Source) : Except RequestFault Document :=
  (source.document host.disk.tree).mapError .source

/-- What completion is about. The document is read only when expansion is on. -/
def completionTarget (host : Host) (settings : Settings) (snapshot : Extensions.Snapshot)
    (source : Source) (position : Position) : Except RequestFault (Option Completion.Target) := do
  match ← dialectOf settings source with
  | none => return none
  | some dialect =>
    if !settings.expansionEnabled then return none
    let document ← readDocument host source
    (Completion.completionTarget host.scan document position dialect settings snapshot).mapError
      .completion

/-- What expansion is about. -/
def expansionTarget (host : Host) (settings : Settings) (snapshot : Extensions.Snapshot)
    (source : Source) (position : Position) : Except RequestFault (Option Completion.Target) := do
  match ← dialectOf settings source with
  | none => return none
  | some dialect =>
    let document ← readDocument host source
    (Completion.target host.scan document position dialect settings snapshot).mapError .completion

/-- The items for a target. -/
def itemsFor (host : Host) (settings : Settings) (target : Option Completion.Target) : List Item :=
  match target with
  | none => []
  | some t => (Completion.candidates host.engine.expander settings t).map (Item.ofCandidate settings)

/-- The edit that expands a target: none when it expands to nothing. -/
def editFor (host : Host) (target : Option Completion.Target) : Option Edit :=
  match target with
  | none => none
  | some t =>
    (Completion.expansion? host.engine.expander t.config t.extracted.abbreviation).map fun expanded =>
      ⟨t.extracted.range, Completion.insertText (Dialect.family t.config.dialect) expanded⟩

/-- The abbreviations that the engine expands for the items of a target. -/
def itemTexts (settings : Settings) (target : Option Completion.Target) : List Text :=
  match target with
  | none => []
  | some t => Completion.engineTexts settings t

/-- The abbreviations that the engine expands for the edit of a target. -/
def editTexts (target : Option Completion.Target) : List Text :=
  match target with
  | none => []
  | some t => [t.config.engineText t.extracted.abbreviation]

end Shorthand.Server
