import ApiNodes.Calendar
import ApiNodes.Number.Binary64
import ApiNodes.Ordered

namespace ApiNodes

/-!
# Document values

The values that JSON and YAML documents hold.  Mappings keep the order of their keys, and
their keys may be any value; two keys count as one when they are equal as numbers, texts
or moments.

A collection may hold itself, at any depth.  It is then a knot: a label, and a body in which
the label stands for the whole.  The views of a value see through knots, so that what is
taken out of a collection is complete again.
-/

/-- A document value. -/
inductive Value
  | null
  | bool (b : Bool)
  | int (i : Int)
  | float (x : Binary64)
  | str (s : String)
  | list (xs : List Value)
  | map (entries : List (Value × Value))
  | date (d : Date)
  | timestamp (t : Timestamp)
  | bytes (data : List UInt8)
  | set (xs : List Value)
  | pair (first second : Value)
  /-- A collection that holds itself. -/
  | knot (label : Nat) (body : Value)
  /-- The collection of a label, inside its own body. -/
  | again (label : Nat)
  deriving Repr, Inhabited

namespace Value

/-! ### Knots -/

mutual

/-- The value in which a label is replaced by what it stands for. -/
def replaced (label : Nat) (whole : Value) : Value → Value
  | again l => if l = label then whole else again l
  | knot l body => if l = label then knot l body else knot l (replaced label whole body)
  | list xs => list (replacedItems label whole xs)
  | map es => map (replacedEntries label whole es)
  | pair a b => pair (replaced label whole a) (replaced label whole b)
  | v => v

/-- The items in which a label is replaced. -/
def replacedItems (label : Nat) (whole : Value) : List Value → List Value
  | [] => []
  | x :: xs => replaced label whole x :: replacedItems label whole xs

/-- The entries in which a label is replaced. -/
def replacedEntries (label : Nat) (whole : Value) : List (Value × Value) → List (Value × Value)
  | [] => []
  | (k, v) :: es =>
    (replaced label whole k, replaced label whole v) :: replacedEntries label whole es

end

/-- The value itself: of a knot, the body in which the label is the knot once more. -/
def untied : Value → Value
  | knot l body => replaced l (knot l body) body
  | v => v

/-! ### Views -/

/-- The entries of a mapping. -/
def entries? (v : Value) : Option (List (Value × Value)) :=
  match v.untied with
  | map es => some es
  | _ => none

/-- The items of a list. -/
def items? (v : Value) : Option (List Value) :=
  match v.untied with
  | list xs => some xs
  | _ => none

@[simp] theorem entries?_map (es : List (Value × Value)) : (map es).entries? = some es := rfl

@[simp] theorem items?_list (xs : List Value) : (list xs).items? = some xs := rfl

/-- The text of a text value. -/
def str? : Value → Option String
  | str s => some s
  | _ => none

/-- A mapping. -/
def isMap (v : Value) : Bool := v.entries?.isSome

/-- The value is this text. -/
def isStr (v : Value) (s : String) : Bool :=
  match v with
  | str s' => s' == s
  | _ => false

/-- The value at a text key of an entry list. -/
def atKey? (k : String) : List (Value × Value) → Option Value
  | [] => none
  | (key, v) :: r => if key.isStr k then some v else atKey? k r

/-- What is found under a key is the value of an entry. -/
theorem mem_of_atKey? {k : String} {es : List (Value × Value)} {v : Value}
    (h : atKey? k es = some v) : ∃ e ∈ es, e.2 = v := by
  induction es with
  | nil => cases h
  | cons e es ih =>
    rw [atKey?] at h
    split at h
    · cases h
      exact ⟨e, List.mem_cons_self, rfl⟩
    · obtain ⟨e', he', heq⟩ := ih h
      exact ⟨e', List.mem_cons_of_mem e he', heq⟩

/-- The value at a text key of a mapping; nothing for a value of another kind. -/
def get? (v : Value) (k : String) : Option Value := v.entries?.bind (atKey? k)

/-- The member of a mapping under a text key, when it is a mapping too. -/
def mapAt? (v : Value) (k : String) : Option Value := (v.get? k).filter isMap

/-- A mapping with text keys. -/
def object (fields : List (String × Value)) : Value := map (fields.map fun (k, v) => (str k, v))

/-- A text, or the null value. -/
def optional : Option String → Value
  | some s => str s
  | none => null

/-- The values that count as present: neither null, nor false, nor zero, nor empty. -/
def isTruthy : Value → Bool
  | null => false
  | bool b => b
  | int i => i != 0
  | float x => !x.isZero
  | str s => s != ""
  | list xs => !xs.isEmpty
  | map es => !es.isEmpty
  | date _ | timestamp _ => true
  | bytes data => !data.isEmpty
  | set xs => !xs.isEmpty
  | pair _ _ | knot _ _ | again _ => true

/-! ### Keys -/

/-- The number a value counts as in the comparison of keys. -/
def number? : Value → Option (Sum Int Binary64)
  | bool b => some (.inl (if b then 1 else 0))
  | int i => some (.inl i)
  | float x =>
    match x.toInt? with
    | some i => some (.inl i)
    | none => some (.inr x)
  | _ => none

/-- Two keys are one key.  A number that is not a number equals nothing. -/
def sameKey : Value → Value → Bool
  | null, null => true
  | str a, str b => a == b
  | date a, date b => a == b
  | bytes a, bytes b => a == b
  | timestamp a, timestamp b =>
    a.offset.isSome == b.offset.isSome && a.instant == b.instant
  | a, b =>
    match a.number?, b.number? with
    | some (.inl i), some (.inl j) => i == j
    | some (.inr x), some (.inr y) => x == y && x != .nan
    | _, _ => false

/-- Values that can stand as keys: all but the containers. -/
def isKey : Value → Bool
  | list _ | map _ | set _ | knot _ _ | again _ => false
  | _ => true

/-- Write to a key of an entry list: in place when the key is present, else at the end. -/
def putKey (k v : Value) : List (Value × Value) → List (Value × Value)
  | [] => [(k, v)]
  | (k', w) :: r => if k'.sameKey k then (k', v) :: r else (k', w) :: putKey k v r

/-- The entries of a mapping that is written pair by pair. -/
def entriesOf (pairs : List (Value × Value)) : List (Value × Value) :=
  pairs.foldl (fun es (k, v) => putKey k v es) []

end Value
end ApiNodes
