import ApiNodes.Document.Yaml.Made

namespace ApiNodes.Yaml

/-!
# Reading YAML

The value of a document, put together from what its nodes stand for.  A node that leads back
to itself becomes a knot under its number.
-/

/-! ### Knots -/

/-- The values that are put together, by node. -/
abbrev Values := Array (Option Value)

/-- The value of a node inside the nodes `around`, and the nodes among those that it leads
    back to.  A value that leads nowhere back is the same everywhere and is kept. -/
def tied (made : Array (Option Made)) :
    Nat → List NodeId → NodeId → StateM Values (Value × List NodeId)
  | 0, _, id => return (.again id, [id])
  | fuel + 1, around, id => do
    let inside (x : NodeId) : StateM Values (Value × List NodeId) := tied made fuel (id :: around) x
    let finish (v : Value) (back : List NodeId) : StateM Values (Value × List NodeId) := do
      if back.isEmpty then
        modify (·.setIfInBounds id (some v))
        return (v, [])
      else return (.knot id v, back.eraseDups.filter (· != id))
    if around.contains id then return (.again id, [id])
    let known ← modifyGet fun values => (values[id]?.join, values)
    match known, made[id]?.join with
    | some v, _ => return (v, [])
    | none, none => return (.null, [])
    | none, some (.leaf v) => return (v, [])
    | none, some (.set keys) => return (.set keys, [])
    | none, some (.list xs) =>
      let vs ← xs.mapM inside
      finish (.list (vs.map Prod.fst)) (vs.flatMap Prod.snd)
    | none, some (.map es) =>
      let vs ← es.mapM fun (_, x) => inside x
      finish (.map ((es.map Prod.fst).zip (vs.map Prod.fst))) (vs.flatMap Prod.snd)
    | none, some (.pairs ps) =>
      let vs ← ps.mapM fun (x, y) => do
        let (v, back) ← inside x
        let (w, back') ← inside y
        return (Value.pair v w, back ++ back')
      finish (.list (vs.map Prod.fst)) (vs.flatMap Prod.snd)

/-- The value of a node.  The nodes around one another are all different, so that there are
    no more of them than nodes. -/
def valueOf (made : Array (Option Made)) (root : NodeId) : Value :=
  (tied made (made.size + 1) [] root (Array.replicate made.size none)).1.1

/-! ### Documents -/

/-- The document that a text holds.  A text without a node is the null value. -/
def read (text : String) : Except Fault Value := do
  let (root, b) ← document { rest := tokens text.toList }
  match root with
  | none => return .null
  | some id => return valueOf (← made b.graph id) id

end ApiNodes.Yaml
