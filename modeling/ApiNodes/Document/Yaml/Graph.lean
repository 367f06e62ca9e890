import ApiNodes.Document.Yaml.PlainTag
import ApiNodes.Document.Yaml.Token

namespace ApiNodes.Yaml

/-!
# Nodes of a YAML text

The nodes that the tokens of a text make up.  A node is known by its number, and an alias is
one more way to the node that carries the anchor.  A collection has its number before its
items are read, so that it can hold itself.  Every node has a tag: the written one, or for
a plain scalar the one that its text matches.
-/

/-! ### Graphs -/

/-- The number of a node. -/
abbrev NodeId := Nat

/-- What a node holds: a text, or other nodes. -/
inductive Content
  | scalar (text : String)
  | sequence (items : List NodeId)
  | mapping (entries : List (NodeId × NodeId))
  deriving Repr

/-- A node. -/
structure Node where
  tag : String
  content : Content
  deriving Repr

/-- The nodes of a document. -/
structure Graph where
  nodes : Array Node := #[]
  deriving Repr

namespace Graph

/-- The tag of a node. -/
def tag (g : Graph) (id : NodeId) : String := ((g.nodes[id]?).map Node.tag).getD ""

/-- What a node holds. -/
def content (g : Graph) (id : NodeId) : Content :=
  ((g.nodes[id]?).map Node.content).getD (.scalar "")

/-- The entries of a mapping; none of another node. -/
def entries (g : Graph) (id : NodeId) : List (NodeId × NodeId) :=
  match g.content id with
  | .mapping es => es
  | _ => []

/-- The graph with another content of a node. -/
def withContent (g : Graph) (id : NodeId) (content : Content) : Graph :=
  { g with nodes := g.nodes.modify id fun n => { n with content } }

/-- The graph with another tag of a node. -/
def withTag (g : Graph) (id : NodeId) (tag : String) : Graph :=
  { g with nodes := g.nodes.modify id fun n => { n with tag } }

end Graph

/-! ### Building -/

/-- The state of building: the tokens to come, the nodes so far, the nodes of the anchors,
    and the count of the collections that are open. -/
structure Building where
  rest : List Token
  graph : Graph := {}
  anchors : List (String × NodeId) := []
  depth : Nat := 0

/-- A step of building. -/
abbrev Build := StateT Building (Except Fault)

/-- Collections stand inside one another at most this often. -/
def nestingLimit : Nat := 489

namespace Build

/-- The next token; none at the end of the text. -/
def peek : Build (Option Token) := do
  match (← get).rest with
  | [] => return none
  | .broken fault :: _ => throw fault
  | t :: _ => return some t

/-- Pass over the next token. -/
def pass : Build Unit := modify fun b => { b with rest := b.rest.tail }

/-- Pass over the next token if it is the given one. -/
def passIf (t : Token) : Build Bool := do
  if (← peek) == some t then
    pass
    return true
  else return false

/-- Add a node. -/
def add (n : Node) : Build NodeId :=
  modifyGet fun b => (b.graph.nodes.size, { b with graph.nodes := b.graph.nodes.push n })

/-- The node of an anchor. -/
def named (anchor : String) : Build NodeId := do
  match (← get).anchors.lookup anchor with
  | some id => return id
  | none => throw .malformed

/-- Give an anchor, which must be new, to the next node that is added. -/
def bindNext (anchor : Option String) : Build Unit := do
  match anchor with
  | none => return
  | some a =>
    if ((← get).anchors.lookup a).isSome then throw .malformed
    modify fun b => { b with anchors := (a, b.graph.nodes.size) :: b.anchors }

/-- Give a node what it holds. -/
def fill (id : NodeId) (content : Content) : Build Unit :=
  modify fun b => { b with graph := b.graph.withContent id content }

end Build

open Build

/-! ### Properties -/

/-- The tags that handles stand for. -/
abbrev Handles := List (String × String)

/-- The handles without directives. -/
def defaultHandles : Handles := [("!", "!"), ("!!", "tag:yaml.org,2002:")]

/-- Anchor and tag of a node. -/
structure Properties where
  anchor : Option String := none
  tag : Option String := none

/-- The full tag. -/
def fullTag (handles : Handles) (t : WrittenTag) : Except Fault String :=
  match t.handle with
  | none => .ok t.suffix
  | some h => needed ((handles.lookup h).map (· ++ t.suffix))

/-- The properties of a node, in either order. -/
def properties (handles : Handles) : Build Properties := do
  match ← peek with
  | some (.anchor a) =>
    pass
    match ← peek with
    | some (.tag t) =>
      pass
      return ⟨some a, some (← fullTag handles t)⟩
    | _ => return ⟨some a, none⟩
  | some (.tag t) =>
    pass
    match ← peek with
    | some (.anchor a) =>
      pass
      return ⟨some a, some (← fullTag handles t)⟩
    | _ => return ⟨none, some (← fullTag handles t)⟩
  | _ => return {}

/-- No tag, or the one that asks for the plain kind. -/
def Properties.isPlain (p : Properties) : Bool := p.tag.isNone || p.tag == some "!"

/-- The tag of a collection. -/
def Properties.collectionTag (p : Properties) (kind : String) : String :=
  if p.isPlain then standardTag kind else p.tag.getD ""

/-- The tag of a scalar. -/
def Properties.scalarTag (p : Properties) (text : String) (isPlain : Bool) : String :=
  match p.tag with
  | none => if isPlain then plainTag text else standardTag "str"
  | some "!" => plainTag text
  | some t => t

/-- Add a scalar with properties. -/
def leaf (p : Properties) (text : String) (isPlain : Bool) : Build NodeId := do
  bindNext p.anchor
  add ⟨p.scalarTag text isPlain, .scalar text⟩

/-- Add the node where nothing is written. -/
def emptyNode : Build NodeId := leaf {} "" true

/-- Add the node of which only properties are written. -/
def bareNode (p : Properties) : Build NodeId :=
  if p.anchor.isNone && p.tag.isNone then throw .malformed else leaf p "" p.isPlain

/-- Add a collection with properties, and then what it holds. -/
def collection (p : Properties) (kind : String) (body : Build Content) : Build NodeId := do
  if (← get).depth = nestingLimit then throw .tooDeep
  bindNext p.anchor
  let id ← add ⟨p.collectionTag kind, .sequence []⟩
  modify fun b => { b with depth := b.depth + 1 }
  fill id (← body)
  modify fun b => { b with depth := b.depth - 1 }
  return id

/-! ### Trees of tokens -/

mutual

/-- A node.  In a block it may be a block collection, and as the value of a block mapping a
    sequence that is not indented. -/
def node (handles : Handles) (inBlock unindented : Bool) : Nat → Build NodeId
  | 0 => throw .malformed
  | fuel + 1 => do
    match ← peek with
    | some (.alias a) =>
      pass
      named a
    | _ =>
      let p ← properties handles
      match ← peek with
      | some (.scalar text isPlain) =>
        pass
        leaf p text isPlain
      | some .flowSequenceStart =>
        pass
        collection p "seq" do return .sequence (← flowItems handles true fuel [])
      | some .flowMappingStart =>
        pass
        collection p "map" do return .mapping (← flowEntries handles true fuel [])
      | some .blockEntry =>
        if unindented then
          collection p "seq" do return .sequence (← unindentedItems handles fuel [])
        else bareNode p
      | some .blockSequenceStart =>
        if inBlock then
          pass
          collection p "seq" do return .sequence (← blockItems handles fuel [])
        else bareNode p
      | some .blockMappingStart =>
        if inBlock then
          pass
          collection p "map" do return .mapping (← blockEntries handles fuel [])
        else bareNode p
      | _ => bareNode p

/-- A node that may be left out before one of the given tokens. -/
def optionalNode (handles : Handles) (inBlock unindented : Bool) (ends : List Token) :
    Nat → Build NodeId
  | 0 => throw .malformed
  | fuel + 1 => do
    if (← peek).any ends.contains then emptyNode else node handles inBlock unindented fuel

/-- The items of a block sequence, up to the end of the block; the ones before them are in
    `seen`, the last first. -/
def blockItems (handles : Handles) : Nat → List NodeId → Build (List NodeId)
  | 0, _ => throw .malformed
  | fuel + 1, seen => do
    if ← passIf .blockEntry then
      let x ← optionalNode handles true false [.blockEntry, .blockEnd] fuel
      blockItems handles fuel (x :: seen)
    else if ← passIf .blockEnd then return seen.reverse
    else throw .malformed

/-- The items of a sequence that is not indented. -/
def unindentedItems (handles : Handles) : Nat → List NodeId → Build (List NodeId)
  | 0, _ => throw .malformed
  | fuel + 1, seen => do
    if ← passIf .blockEntry then
      let x ← optionalNode handles true false [.blockEntry, .key, .value, .blockEnd] fuel
      unindentedItems handles fuel (x :: seen)
    else return seen.reverse

/-- The entries of a block mapping, up to the end of the block. -/
def blockEntries (handles : Handles) :
    Nat → List (NodeId × NodeId) → Build (List (NodeId × NodeId))
  | 0, _ => throw .malformed
  | fuel + 1, seen => do
    if ← passIf .key then
      let k ← optionalNode handles true true [.key, .value, .blockEnd] fuel
      let v ← entryValue handles true [.key, .value, .blockEnd] fuel
      blockEntries handles fuel ((k, v) :: seen)
    else if ← passIf .blockEnd then return seen.reverse
    else throw .malformed

/-- The value of an entry. -/
def entryValue (handles : Handles) (inBlock : Bool) (ends : List Token) : Nat → Build NodeId
  | 0 => throw .malformed
  | fuel + 1 => do
    if ← passIf .value then optionalNode handles inBlock inBlock ends fuel else emptyNode

/-- A marked entry in brackets or braces, read after its mark; `closer` ends the
    collection. -/
def flowEntry (handles : Handles) (closer : Token) : Nat → Build (NodeId × NodeId)
  | 0 => throw .malformed
  | fuel + 1 => do
    let k ← optionalNode handles false false [.value, .flowEntry, closer] fuel
    let v ← entryValue handles false [.flowEntry, closer] fuel
    return (k, v)

/-- The items of a sequence in brackets; an entry of a mapping may stand on its own there. -/
def flowItems (handles : Handles) (isFirst : Bool) : Nat → List NodeId → Build (List NodeId)
  | 0, _ => throw .malformed
  | fuel + 1, seen => do
    if ← passIf .flowSequenceEnd then return seen.reverse
    unless isFirst do
      unless ← passIf .flowEntry do throw .malformed
    if ← passIf .flowSequenceEnd then return seen.reverse
    else if ← passIf .key then
      let x ← collection {} "map" do
        return .mapping [← flowEntry handles .flowSequenceEnd fuel]
      flowItems handles false fuel (x :: seen)
    else
      let x ← node handles false false fuel
      flowItems handles false fuel (x :: seen)

/-- The entries of a mapping in braces. -/
def flowEntries (handles : Handles) (isFirst : Bool) :
    Nat → List (NodeId × NodeId) → Build (List (NodeId × NodeId))
  | 0, _ => throw .malformed
  | fuel + 1, seen => do
    if ← passIf .flowMappingEnd then return seen.reverse
    unless isFirst do
      unless ← passIf .flowEntry do throw .malformed
    if ← passIf .flowMappingEnd then return seen.reverse
    else if ← passIf .key then
      let e ← flowEntry handles .flowMappingEnd fuel
      flowEntries handles false fuel (e :: seen)
    else
      let k ← node handles false false fuel
      let v ← emptyNode
      flowEntries handles false fuel ((k, v) :: seen)

end

/-! ### Documents -/

/-- The handles that directives declare, up to the mark at the start of the document.  A
    version must be one of the first, and nothing may be declared twice. -/
def directives (hasVersion : Bool) (declared : Handles) : Nat → Build Handles
  | 0 => throw .malformed
  | fuel + 1 => do
    match ← peek with
    | some (.directive d) =>
      pass
      match d with
      | .version major _ =>
        if hasVersion || major != 1 then throw .malformed else directives true declared fuel
      | .tag h start =>
        if (declared.lookup h).isSome then throw .malformed
        else directives hasVersion ((h, start) :: declared) fuel
      | .other => directives hasVersion declared fuel
    | some .documentStart =>
      pass
      return declared ++ defaultHandles
    | _ => throw .malformed

/-- Nothing but marks may stand behind the document. -/
def theEnd : Nat → Build Unit
  | 0 => throw .malformed
  | fuel + 1 => do
    if ← passIf .documentEnd then theEnd fuel
    else if (← peek).isSome then
      let _ ← directives false [] fuel
      throw .malformed

/-- The first node of a document. -/
def rootNode (fuel : Nat) : Build NodeId := do
  match ← peek with
  | some (.directive _) | some .documentStart =>
    let handles ← directives false [] fuel
    if (← peek).all isBoundary then emptyNode else node handles true false fuel
  | _ => node defaultHandles true false fuel
where
  /-- A mark or a directive, in front of which a document is empty. -/
  isBoundary : Token → Bool
    | .directive _ | .documentStart | .documentEnd => true
    | _ => false

/-- The first node of the document that the tokens make up; none without tokens. -/
def document : Build (Option NodeId) := do
  if (← peek).isNone then return none
  let fuel := 4 * (← get).rest.length + 4
  let id ← rootNode fuel
  theEnd fuel
  return some id

end ApiNodes.Yaml
