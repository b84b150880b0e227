/-
The nodes of a YAML document: scalars, sequences and mappings, each with a tag. A node is
known by its number, since an alias makes it stand in several places, and even within
itself.
-/
import Shorthand.Data.Yaml.Plain
import Shorthand.Data.Yaml.Scanner

namespace Shorthand.Data.Yaml

inductive Content where
  | scalar (t : Text)
  | sequence (items : List Nat)
  | mapping (entries : List (Nat × Nat))
  deriving Inhabited

structure Node where
  tag : Tag
  content : Content
  deriving Inhabited

/-- The nodes read so far. One that is still being read has its number already. -/
structure Graph where
  nodes : Array Node
  /-- The numbers of the nodes that have ended, in this order. -/
  ended : Array Nat
  /-- The nodes that anchors name. -/
  anchors : List (Text × Nat)

namespace Graph

def empty : Graph := ⟨#[], #[], []⟩

/-- The number of the next node. -/
def next (g : Graph) : Nat := g.nodes.size

/-- Takes in a node, which its anchor names from now on. -/
def add (g : Graph) (anchor : Option Text) (node : Node) : Graph where
  nodes := g.nodes.push node
  ended := g.ended
  anchors := (anchor.map (·, g.next)).toList ++ g.anchors

/-- Gives a node its content, which ends it. -/
def finish (g : Graph) (id : Nat) (content : Content) : Graph where
  nodes := g.nodes.modify id fun node => { node with content := content }
  ended := g.ended.push id
  anchors := g.anchors

/-- Takes in a scalar. -/
def addScalar (g : Graph) (anchor : Option Text) (tag : Tag) (t : Text) : Nat × Graph :=
  (g.next, (g.add anchor ⟨tag, .scalar t⟩).finish g.next (.scalar t))

/-- Takes in the node of a place where there is none. -/
def addMissing (g : Graph) : Nat × Graph := g.addScalar none .null []

end Graph

/-- The texts that tag handles stand for. -/
abbrev Handles := List (Text × Text)

def defaultHandles : Handles :=
  [(['!'], ['!']), (['!', '!'], "tag:yaml.org,2002:".toList)]

/-- The anchor and the tag before a node. -/
structure Properties where
  anchor : Option Text
  tag : Option (Option Text × Text)

namespace Properties

def isEmpty (p : Properties) : Bool := p.anchor.isNone && p.tag.isNone

/-- Whether nothing can be added. -/
def isFull (p : Properties) : Bool := p.anchor.isSome && p.tag.isSome

end Properties

def properties : List Token → Properties × List Token
  | .anchor a :: .tag h s :: rest => (⟨some a, some (h, s)⟩, rest)
  | .anchor a :: rest => (⟨some a, none⟩, rest)
  | .tag h s :: .anchor a :: rest => (⟨some a, some (h, s)⟩, rest)
  | .tag h s :: rest => (⟨none, some (h, s)⟩, rest)
  | rest => (⟨none, none⟩, rest)

/-- The whole text of a tag: a handle has to be a known one. -/
def tagText? (handles : Handles) : Option Text × Text → Option Text
  | (none, suffix) => some suffix
  | (some handle, suffix) => (handles.lookup handle).map (· ++ suffix)

/-- The tag of a scalar. One that is plain, or has the tag `!`, is told by its text. -/
def scalarTag (tag : Option Text) (plain : Bool) (t : Text) : Tag :=
  match tag with
  | none => if plain then Tag.ofUntagged t else .text
  | some tag => if tag = ['!'] then Tag.ofUntagged t else Tag.ofText tag

/-- The tag of a collection, `usual` when it has none or `!`. -/
def collectionTag (tag : Option Text) (usual : Tag) : Tag :=
  match tag with
  | none => usual
  | some tag => if tag = ['!'] then usual else Tag.ofText tag

/-- Whether the node of a value or key in a block is missing. -/
def missingInBlock : List Token → Bool
  | .key :: _ | .value :: _ | .blockEnd :: _ => true
  | _ => false

/-- Whether an item of a sequence in a block is missing. -/
def missingItem (indentless : Bool) : List Token → Bool
  | .blockEntry :: _ | .blockEnd :: _ => true
  | .key :: _ | .value :: _ => indentless
  | _ => false

/-- Whether the node of a key or value in a flow collection is missing; `closing` ends
the collection. -/
def missingInFlow (closing : Token) : List Token → Bool
  | .value :: _ | .flowEntry :: _ => true
  | t :: _ => t == closing
  | [] => false

/-- What is wrong where other tokens were due: either these, or there are none to be read. -/
def faultAt : List Token → ReadFault
  | .broken why :: _ => why
  | _ => .malformed

/-- Refuses to go on where no token can be read. -/
def known : List Token → Except ReadFault Unit
  | .broken why :: _ => .error why
  | _ => .ok ()

/-- How many collections may stand in one another. -/
def maxDepth : Nat := 490

/-- What was read, the nodes by then, and the tokens left. -/
abbrev Found (α : Type) := α × Graph × List Token

mutual

/-- Reads a node; `depth` more may stand in one another. Blocks are allowed unless the node
stands in a flow collection, and a sequence without indentation of its own where a mapping
has its keys and values. -/
def node (handles : Handles) (block indentless : Bool) :
    (fuel depth : Nat) → Graph → List Token → Except ReadFault (Found Nat)
  | 0, _, _, _ => .error .malformed
  | _ + 1, _, g, .alias name :: rest => do
    return (← orMalformed (g.anchors.lookup name), g, rest)
  | _ + 1, 0, _, _ => .error (.obstacle .tooDeep)
  | fuel + 1, depth + 1, g, tokens => do
    let (props, rest) := properties tokens
    if !props.isFull then known rest
    let tag ← match props.tag with
      | none => .ok none
      | some t => (orMalformed (tagText? handles t)).map some
    known rest
    if props.anchor.any fun a => (g.anchors.lookup a).isSome then throw .malformed
    let sequence (read : Graph → Except ReadFault (Found (List Nat))) : Except ReadFault (Found Nat) := do
      let (items, after, rest) ← read (g.add props.anchor ⟨collectionTag tag .sequence, .sequence []⟩)
      return (g.next, after.finish g.next (.sequence items), rest)
    let mapping (read : Graph → Except ReadFault (Found (List (Nat × Nat)))) : Except ReadFault (Found Nat) := do
      let (entries, after, rest) ← read (g.add props.anchor ⟨collectionTag tag .mapping, .mapping []⟩)
      return (g.next, after.finish g.next (.mapping entries), rest)
    let missing : Except ReadFault (Found Nat) :=
      if props.isEmpty then .error .malformed
      else
        let (id, g) := g.addScalar props.anchor (scalarTag tag true []) []
        .ok (id, g, rest)
    match rest with
    | .scalar plain t :: rest =>
      let (id, g) := g.addScalar props.anchor (scalarTag tag plain t) t
      return (id, g, rest)
    | .flowSequenceStart :: rest => sequence fun g => flowItems handles true fuel depth g rest
    | .flowMappingStart :: rest => mapping fun g => flowEntries handles true fuel depth g rest
    | .blockEntry :: _ =>
      if indentless then sequence fun g => blockItems handles true fuel depth g rest else missing
    | .blockSequenceStart :: after =>
      if block then sequence fun g => blockItems handles false fuel depth g after else missing
    | .blockMappingStart :: after =>
      if block then mapping fun g => blockEntries handles fuel depth g after else missing
    | _ => missing
termination_by structural fuel => fuel

/-- Reads the items of a sequence in a block. One without indentation of its own ends
where no item follows, another one with its block. -/
def blockItems (handles : Handles) (indentless : Bool) :
    (fuel depth : Nat) → Graph → List Token → Except ReadFault (Found (List Nat))
  | 0, _, _, _ => .error .malformed
  | fuel + 1, depth, g, .blockEntry :: tokens => do
    let (item, g, rest) ←
      if missingItem indentless tokens then let (id, g) := g.addMissing; .ok (id, g, tokens)
      else node handles true false fuel depth g tokens
    let (items, g, rest) ← blockItems handles indentless fuel depth g rest
    return (item :: items, g, rest)
  | _ + 1, _, g, tokens =>
    if indentless then .ok ([], g, tokens)
    else match tokens with
      | .blockEnd :: rest => .ok ([], g, rest)
      | _ => .error (faultAt tokens)
termination_by structural fuel => fuel

/-- Reads the entries of a mapping in a block. -/
def blockEntries (handles : Handles) :
    (fuel depth : Nat) → Graph → List Token → Except ReadFault (Found (List (Nat × Nat)))
  | 0, _, _, _ => .error .malformed
  | fuel + 1, depth, g, .key :: tokens => do
    let (key, g, rest) ←
      if missingInBlock tokens then let (id, g) := g.addMissing; .ok (id, g, tokens)
      else node handles true true fuel depth g tokens
    let (value, g, rest) ← match rest with
      | .value :: rest =>
        if missingInBlock rest then let (id, g) := g.addMissing; .ok (id, g, rest)
        else node handles true true fuel depth g rest
      | rest => let (id, g) := g.addMissing; .ok (id, g, rest)
    let (entries, g, rest) ← blockEntries handles fuel depth g rest
    return ((key, value) :: entries, g, rest)
  | _ + 1, _, g, .blockEnd :: rest => .ok ([], g, rest)
  | _, _, _, tokens => .error (faultAt tokens)
termination_by structural fuel => fuel

/-- Reads the entry of a flow collection that begins with a key token; `closing` ends
the collection. -/
def flowEntry (handles : Handles) (closing : Token) :
    (fuel depth : Nat) → Graph → List Token → Except ReadFault (Found (Nat × Nat))
  | 0, _, _, _ => .error .malformed
  | fuel + 1, depth, g, tokens => do
    let (key, g, rest) ←
      if missingInFlow closing tokens then let (id, g) := g.addMissing; .ok (id, g, tokens)
      else node handles false false fuel depth g tokens
    let (value, g, rest) ← match rest with
      | .value :: rest =>
        if rest.head? == some .flowEntry || rest.head? == some closing then
          let (id, g) := g.addMissing; .ok (id, g, rest)
        else node handles false false fuel depth g rest
      | rest => let (id, g) := g.addMissing; .ok (id, g, rest)
    return ((key, value), g, rest)
termination_by structural fuel => fuel

/-- Reads the items of a flow sequence. An item may be a single entry of a mapping. -/
def flowItems (handles : Handles) (first : Bool) :
    (fuel depth : Nat) → Graph → List Token → Except ReadFault (Found (List Nat))
  | 0, _, _, _ => .error .malformed
  | _ + 1, _, g, .flowSequenceEnd :: rest => .ok ([], g, rest)
  | fuel + 1, depth, g, tokens => do
    let tokens ← match first, tokens with
      | true, tokens => .ok tokens
      | false, .flowEntry :: rest => .ok rest
      | false, tokens => .error (faultAt tokens)
    match tokens with
    | .flowSequenceEnd :: rest => .ok ([], g, rest)
    | tokens =>
      let (item, g, rest) ← match depth, tokens with
        | 0, .key :: _ => .error (.obstacle .tooDeep)
        | depth + 1, .key :: rest => do
          let id := g.next
          let (entry, g, rest) ←
            flowEntry handles .flowSequenceEnd fuel depth (g.add none ⟨.mapping, .mapping []⟩) rest
          .ok (id, g.finish id (.mapping [entry]), rest)
        | depth, tokens => node handles false false fuel depth g tokens
      let (items, g, rest) ← flowItems handles false fuel depth g rest
      return (item :: items, g, rest)
termination_by structural fuel => fuel

/-- Reads the entries of a flow mapping. A node without a colon is a key without value. -/
def flowEntries (handles : Handles) (first : Bool) :
    (fuel depth : Nat) → Graph → List Token → Except ReadFault (Found (List (Nat × Nat)))
  | 0, _, _, _ => .error .malformed
  | _ + 1, _, g, .flowMappingEnd :: rest => .ok ([], g, rest)
  | fuel + 1, depth, g, tokens => do
    let tokens ← match first, tokens with
      | true, tokens => .ok tokens
      | false, .flowEntry :: rest => .ok rest
      | false, tokens => .error (faultAt tokens)
    match tokens with
    | .flowMappingEnd :: rest => .ok ([], g, rest)
    | tokens =>
      let (entry, g, rest) ← match tokens with
        | .key :: rest => flowEntry handles .flowMappingEnd fuel depth g rest
        | tokens => do
          let (key, g, rest) ← node handles false false fuel depth g tokens
          let (value, g) := g.addMissing
          .ok ((key, value), g, rest)
      let (entries, g, rest) ← flowEntries handles false fuel depth g rest
      return (entry :: entries, g, rest)
termination_by structural fuel => fuel

end

/-- The handles that directives declare, and the tokens after them. A version has to be
one of the first, and is given once, as is each handle. -/
def directives (versioned : Bool) (handles : Handles) :
    List Token → Except ReadFault (Handles × List Token)
  | .directive (.version major) :: rest =>
    if versioned || major != 1 then .error .malformed else directives true handles rest
  | .directive (.tagHandle handle lead) :: rest =>
    if (handles.lookup handle).isSome then .error .malformed
    else directives versioned ((handle, lead) :: handles) rest
  | .directive .other :: rest => directives versioned handles rest
  | tokens => .ok (handles ++ defaultHandles, tokens)

/-- Whether the content of a document is missing. -/
def missingContent : List Token → Bool
  | [] | .directive _ :: _ | .documentStart :: _ | .documentEnd :: _ => true
  | _ => false

/-- Refuses a second document: after the marks that end the first one nothing may follow. -/
def onlyDocument (tokens : List Token) : Except ReadFault Unit :=
  match tokens.dropWhile (· == .documentEnd) with
  | [] => .ok ()
  | more => do
    let (_, rest) ← directives false [] more
    throw (faultAt rest)

/-- The nodes of the only document in a list of tokens, and the number of the outermost
one; none when there is no document. -/
def document (tokens : List Token) : Except ReadFault (Option (Graph × Nat)) := do
  if tokens.isEmpty then return none
  let (handles, tokens, explicit) ← match tokens with
    | .directive d :: rest => do
      match ← directives false [] (.directive d :: rest) with
      | (handles, .documentStart :: rest) => .ok (handles, rest, true)
      | (_, rest) => .error (faultAt rest)
    | .documentStart :: rest => .ok (defaultHandles, rest, true)
    | tokens => .ok (defaultHandles, tokens, false)
  let (root, g, rest) ←
    if explicit && missingContent tokens then
      let (id, g) := Graph.empty.addMissing; .ok (id, g, tokens)
    else node handles true false (8 * tokens.length + 8) maxDepth .empty tokens
  onlyDocument rest
  return some (g, root)

end Shorthand.Data.Yaml
