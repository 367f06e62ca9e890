import ApiNodes.Document.Yaml.Graph

namespace ApiNodes.Yaml

/-!
# Merged mappings

An entry under the merge key stands for the entries of another mapping, or of the mappings
of a sequence.  Merging takes such entries out of a mapping and puts the entries that they
stand for before its own, so that its own values win; of several mappings in a sequence the
first wins.  What is merged is merged itself first, and the value key counts as a text from
then on.
-/

/-- The entries of a mapping. -/
abbrev NodeEntries := List (NodeId × NodeId)

namespace Graph

/-- The key of an entry has the given tag. -/
def hasKeyTag (g : Graph) (tag : String) (e : NodeId × NodeId) : Bool :=
  g.tag e.1 == standardTag tag

/-- The first entry under the merge key, and the entries around it. -/
def mergeEntry? (g : Graph) (id : NodeId) : Option (NodeId × NodeEntries) :=
  let es := g.entries id
  (es.findIdx? (g.hasKeyTag "merge")).bind fun i =>
    es[i]?.map fun e => (e.2, es.eraseIdx i)

/-- The graph in which the value keys of a mapping are texts. -/
def withPlainKeys (g : Graph) (id : NodeId) : Graph :=
  ((g.entries id).filter (g.hasKeyTag "value")).foldl
    (fun g e => g.withTag e.1 (standardTag "str")) g

/-- The graph after the merging of a mapping, with the entries that it then has. -/
abbrev Merging := NodeId → Graph → Except Fault Graph

/-- The entries of mappings that are merged one after the other, those of the last first. -/
def givenByAll (merge : Merging) : List NodeId → Graph → Except Fault (NodeEntries × Graph)
  | [], g => .ok ([], g)
  | x :: xs, g => do
    match g.content x with
    | .mapping _ =>
      let g ← merge x g
      let own := g.entries x
      let (rest, g) ← givenByAll merge xs g
      return (rest ++ own, g)
    | _ => throw .malformed

/-- The entries that a mapping, or a sequence of mappings, gives to another. -/
def given (merge : Merging) (source : NodeId) (g : Graph) : Except Fault (NodeEntries × Graph) :=
  match g.content source with
  | .scalar _ => .error .malformed
  | .mapping _ => do
    let g ← merge source g
    return (g.entries source, g)
  | .sequence xs => givenByAll merge xs g

/-- Merge what remains to be merged of a mapping; `before` are the entries that it was given.
    An entry is taken out before what it stands for is merged, so that there is one step at
    most for every entry under the merge key. -/
def mergeFrom : Nat → NodeEntries → NodeId → Graph → Except Fault Graph
  | 0, _, _, _ => .error .malformed
  | fuel + 1, before, id, g =>
    match g.mergeEntry? id with
    | none =>
      let g := g.withPlainKeys id
      .ok (g.withContent id (.mapping (before ++ g.entries id)))
    | some (source, rest) => do
      let (es, g) ← given (mergeFrom fuel []) source (g.withContent id (.mapping rest))
      mergeFrom fuel (before ++ es) id g

/-- The count of the entries under the merge key. -/
def mergeCount (g : Graph) : Nat :=
  g.nodes.foldl (fun n node =>
    match node.content with
    | .mapping es => n + es.countP (g.hasKeyTag "merge")
    | _ => n) 0

/-- Merge what is to be merged into a mapping. -/
def merge (id : NodeId) (g : Graph) : Except Fault Graph :=
  if (g.entries id).any fun e => g.hasKeyTag "merge" e || g.hasKeyTag "value" e then
    mergeFrom (g.mergeCount + 1) [] id g
  else .ok g

end Graph

end ApiNodes.Yaml
