import ApiNodes.Document.Yaml.Merge
import ApiNodes.Document.Yaml.ScalarValue

namespace ApiNodes.Yaml

/-!
# What nodes stand for

The value of every scalar and the nodes in every collection, by the tags.  A scalar is read
as soon as a way leads to it.  A collection is filled later, in rounds: a round fills the
collections that the round before came to, in the order in which it came to them.  The
first fault on this way is the fault of the document.
-/

/-- What a node stands for: a value, or a collection of nodes. -/
inductive Made
  | leaf (v : Value)
  | list (items : List NodeId)
  | map (entries : List (Value × NodeId))
  | set (keys : List Value)
  | pairs (items : NodeEntries)

/-- The kinds of collections. -/
inductive Kind
  | list
  | map
  | set
  | pairs
  deriving DecidableEq, Repr

/-- The kind of collection that a tag asks for. -/
def kindOf? (tag : String) : Option Kind :=
  if tag = standardTag "map" then some .map
  else if tag = standardTag "seq" then some .list
  else if tag = standardTag "set" then some .set
  else if tag = standardTag "omap" ∨ tag = standardTag "pairs" then some .pairs
  else none

/-- A collection of a kind before it is filled. -/
def Kind.empty : Kind → Made
  | list => .list []
  | map => .map []
  | set => .set []
  | pairs => .pairs []

/-- The state of making: the nodes, what is made of them, and the collections that wait for
    the next round, the last first. -/
structure Making where
  graph : Graph
  made : Array (Option Made)
  waiting : List NodeId := []

/-- A step of making. -/
abbrev Make := StateT Making (Except Fault)

/-! ### Scalars -/

/-- The text of a node: that of a scalar, or of the value that a mapping has under the value
    key. -/
def Graph.text (g : Graph) : Nat → NodeId → Except Fault String
  | 0, _ => .error .tooDeep
  | fuel + 1, id =>
    match g.content id with
    | .scalar s => .ok s
    | .sequence _ => .error .malformed
    | .mapping es =>
      match es.find? (g.hasKeyTag "value") with
      | some e => g.text fuel e.2
      | none => .error .malformed

/-- The text of a node.  A way that is longer than the count of nodes has no end. -/
def Graph.textOf (g : Graph) (id : NodeId) : Except Fault String := g.text (g.nodes.size + 1) id

/-- The value of a node that a tag for scalars stands at.  A moment is only read from a
    scalar. -/
def Graph.scalarOf (g : Graph) (id : NodeId) : Except Fault Value := do
  let read ← needed (scalarReader? (g.tag id))
  let text ← g.textOf id
  match g.content id with
  | .scalar _ => read text
  | _ => if g.tag id = standardTag "timestamp" then throw .mappingAsMoment else read text

namespace Make

/-- Note what a node stands for. -/
def note (id : NodeId) (m : Made) : Make Unit :=
  modify fun s => { s with made := s.made.setIfInBounds id (some m) }

/-- Come to a node. -/
def visit (id : NodeId) : Make Unit := do
  let isMade ← modifyGet fun s => ((s.made[id]?.join).isSome, s)
  if isMade then return
  match kindOf? ((← get).graph.tag id) with
  | some kind =>
    note id kind.empty
    modify fun s => { s with waiting := id :: s.waiting }
  | none =>
    let v ← ((← get).graph.scalarOf id : Except Fault Value)
    note id (.leaf v)

/-! ### Keys -/

/-- The value of a key.  Where a value is not equal to itself, its source tells whether it is
    the same: the words for it have all one source, other texts have their own. -/
structure Key where
  value : Value
  source : Option NodeId

/-- Two keys are one key. -/
def Key.same (a b : Key) : Bool :=
  match a.value, b.value with
  | .float .nan, .float .nan => a.source == b.source
  | v, w => v.sameKey w

/-- The key that a node stands for, which may be no collection. -/
def key (id : NodeId) : Make Key := do
  let s ← get
  match s.made[id]?.join with
  | some (.leaf v) =>
    let isWord := match s.graph.textOf id with | .ok t => isNanWord t.toList | .error _ => false
    return ⟨v, if isWord then none else some id⟩
  | _ => throw .malformed

/-- Write to a key: in place when the key is present, else at the end. -/
def putKey (k : Key) (v : NodeId) : List (Key × NodeId) → List (Key × NodeId)
  | [] => [(k, v)]
  | (k', w) :: r => if k'.same k then (k', v) :: r else (k', w) :: putKey k v r

/-! ### Collections -/

/-- The entries of a mapping, key by key: keys are written with the values that come with
    them. -/
def entries (id : NodeId) : Make (List (Value × NodeId)) := do
  let g ← ((← get).graph.merge id : Except Fault Graph)
  modify fun s => { s with graph := g }
  match g.content id with
  | .mapping es =>
    let written ← es.foldlM (fun (written : List (Key × NodeId)) (k, v) => do
      visit k
      let key ← key k
      visit v
      return putKey key v written) []
    return written.map fun (k, v) => (k.value, v)
  | _ => throw .malformed

/-- The pair that a mapping with one entry stands for. -/
def pair (id : NodeId) : Make (NodeId × NodeId) := do
  match (← get).graph.content id with
  | .mapping [(k, v)] =>
    visit k
    visit v
    return (k, v)
  | _ => throw .malformed

/-- The items of a sequence. -/
def items (id : NodeId) : Make (List NodeId) := do
  match (← get).graph.content id with
  | .sequence xs => return xs
  | _ => throw .malformed

/-- The integer of an integer value. -/
def int? : Value → Option Int
  | .int i => some i
  | _ => none

/-- The members of a set, which has no order of its own: integers ascend, and other members
    stay as they come. -/
def members (keys : List Value) : List Value :=
  match keys.mapM int? with
  | some is => (is.mergeSort fun a b => decide (a ≤ b)).map .int
  | none => keys

/-- Fill a collection of a kind. -/
def fillAs (id : NodeId) : Kind → Make Made
  | .list => do
    let xs ← items id
    xs.forM visit
    return .list xs
  | .map => do return .map (← entries id)
  | .set => do return .set (members ((← entries id).map Prod.fst))
  | .pairs => do return .pairs (← (← items id).mapM pair)

/-- Fill a collection. -/
def fill (id : NodeId) : Make Unit := do
  match kindOf? ((← get).graph.tag id) with
  | some kind => note id (← fillAs id kind)
  | none => return

/-- Fill the collections that wait, round after round. -/
def rounds : Nat → Make Unit
  | 0 => return
  | fuel + 1 => do
    let round := (← get).waiting.reverse
    if round.isEmpty then return
    modify fun s => { s with waiting := [] }
    round.forM fill
    rounds fuel

end Make

/-- What the nodes of a document stand for that are reached from the first.  A collection
    waits once, so that there are no more rounds than nodes. -/
def made (g : Graph) (root : NodeId) : Except Fault (Array (Option Made)) := do
  let size := g.nodes.size
  let ((), s) ← StateT.run (do Make.visit root; Make.rounds (size + 1))
    { graph := g, made := Array.replicate size none }
  return s.made

end ApiNodes.Yaml
