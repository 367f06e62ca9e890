import ApiNodes.Document.Value
import ApiNodes.Text.LabelOrder

namespace ApiNodes

/-!
# Sorting by a label

Mappings are sorted by the label that each has under a key.
-/

/-- Why mappings cannot be sorted. -/
inductive SortFault
  | notMapping
  | noLabel
  | labelNotText
  deriving DecidableEq, Repr

/-- The label of a mapping. -/
def labelOf (key : String) (v : Value) : Except SortFault String :=
  match v.entries? with
  | none => .error .notMapping
  | some es =>
    match Value.atKey? key es with
    | some (.str s) => .ok s
    | some _ => .error .labelNotText
    | none => .error .noLabel

/-- The mappings in the order of their labels. -/
def sortedByLabel (key : String) (items : List Value) : Except SortFault (List Value) := do
  let labelled ← items.mapM fun v => do return (← labelOf key v, v)
  return (Text.inLabelOrder Prod.fst labelled).map Prod.snd

end ApiNodes
