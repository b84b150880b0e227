/-
The commands a client can run. Their arguments may be any values.
-/
import Shorthand.Server.Session

namespace Shorthand.Server

open Data Extensions

/-- Why a command does not run. -/
inductive CommandFault where
  | argumentCount
  /-- The position is no mapping. -/
  | notPosition
  | missingMember
  | outOfRange
  | store (why : StoreFault)
  | request (why : RequestFault)
  deriving DecidableEq, Repr

/-- The position in a mapping; members other than the two it needs are ignored. -/
def positionArgument (v : Value) : Except CommandFault Position :=
  match v.mapping? with
  | none => .error .notPosition
  | some m => match m.get? (.text "line".toList), m.get? (.text "character".toList) with
    | some (.scalar (.int line)), some (.scalar (.int column)) =>
      match Position.ofInts? line column with
      | some position => .ok position
      | none => .error .outOfRange
    | some _, some _ => .error .outOfRange
    | _, _ => .error .missingMember

namespace Session

/-- Makes a directory that of the settings, or none without an argument. -/
def runUpdatePath (host : Host) (arguments : List Value) (s : Session) :
    Except CommandFault Unit × Session × Log :=
  let run (path : Option Text) : Except CommandFault Unit × Session × Log :=
    let (result, s, log) := s.setPath host path
    (result.mapError .store, s, log)
  match arguments with
  | [] => run none
  | [path] => run path.text?
  | _ => (.error .argumentCount, s, [])

/-- The source and the position an expansion is asked for. -/
def expansionPlace (s : Session) (uri position : Value) : Except CommandFault (Source × Position) :=
  match s.source (uri.text?.getD []) with
  | .error why => .error (.request why)
  | .ok source => (positionArgument position).map (source, ·)

/-- Expands the abbreviation before a position, the second argument, in the document of
a URI, the first one. -/
def runExpand (host : Host) (arguments : List Value) (s : Session) :
    Except CommandFault (Option Edit) × List Text × Log :=
  match arguments with
  | [uri, position] =>
    if !s.hasCapabilities then (.ok none, [], [])
    else match s.expansionPlace uri position with
      | .error why => (.error why, [], [])
      | .ok (source, position) =>
        let (edit, texts, log) := s.expand host source position
        (.ok edit, texts, log)
  | _ => (.error .argumentCount, [], [])

end Session

/-! ## What a server says about itself -/

def serverName : Text := "emmetls".toList

def serverVersion : Text := "0.1.0".toList

def abbreviationDescription : Text := "Expand Emmet abbreviations and suggest matching snippets".toList

/-- The requests and notifications that are answered, in alphabetical order. -/
def features : List Text :=
  ["initialize", "textDocument/completion", "textDocument/didSave",
   "workspace/didChangeConfiguration"].map String.toList

/-- The commands that can be run, in alphabetical order. -/
def commands : List Text :=
  ["emmet.expandAbbreviation", "emmet.updateExtensionsPath"].map String.toList

end Shorthand.Server
