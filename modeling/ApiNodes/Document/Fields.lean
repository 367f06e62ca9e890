import ApiNodes.Document.Value

namespace ApiNodes

/-!
# Reading records

A record is read from the fields of a mapping.  Every field is read, and the issues of all
of them are reported together, in the order in which the record declares its fields.  A
field that the record does not declare is passed over.
-/

/-! ### Issues -/

/-- One step of the way to a value inside a record. -/
inductive Place
  | field (name : String)
  | item (index : Nat)
  deriving DecidableEq, Repr

/-- What is wrong with a value. -/
inductive Defect
  | missing
  | notText
  | notUnicode
  | notTruth
  | unclearTruth
  | notList
  | notMapping
  | notRecord
  | fixed
  deriving DecidableEq, Repr

/-- A defect and the way to the value that has it. -/
structure Issue where
  place : List Place
  defect : Defect
  deriving DecidableEq, Repr

/-- An issue of a value inside another. -/
def Issue.under (p : Place) (i : Issue) : Issue := { i with place := p :: i.place }

/-- A record, or the issues that keep its fields from being one. -/
inductive Checked (α : Type)
  | good (a : α)
  | bad (issues : List Issue)
  deriving Repr

namespace Checked

variable {α β : Type}

/-- Both parts are read, and the issues of both are kept. -/
def both : Checked (α → β) → Checked α → Checked β
  | good f, good a => good (f a)
  | good _, bad is => bad is
  | bad is, good _ => bad is
  | bad is, bad js => bad (is ++ js)

instance : Applicative Checked where
  pure := good
  seq f a := both f (a ())

/-- The issues seen from outside a part. -/
def under (p : Place) : Checked α → Checked α
  | good a => good a
  | bad is => bad (is.map (Issue.under p))

/-- One defect of the value as a whole. -/
def defect (d : Defect) : Checked α := bad [⟨[], d⟩]

end Checked

/-! ### Values -/

/-- A text.  Bytes count as the text that they encode. -/
def readText : Value → Checked String
  | .str s => .good s
  | .bytes data =>
    match String.fromUTF8? ⟨data.toArray⟩ with
    | some s => .good s
    | none => .defect .notUnicode
  | _ => .defect .notText

/-- The words for truth values, in small letters. -/
def truthWords : List (String × Bool) :=
  [("0", false), ("off", false), ("f", false), ("false", false), ("n", false), ("no", false),
   ("1", true), ("on", true), ("t", true), ("true", true), ("y", true), ("yes", true)]

/-- A whole number for a truth value.  The other numbers of 64 bits are unclear; a number
    beyond them is none at all. -/
def numberTruth (i : Int) : Checked Bool :=
  if i = 0 then .good false
  else if i = 1 then .good true
  else if -(Binary64.twoTo 63 : Int) ≤ i ∧ i < Binary64.twoTo 63 then .defect .unclearTruth
  else .defect .notTruth

/-- A truth value, or a number or a word for one.  Of the floating-point numbers only those
    that are whole and between the bounds of 64 bits count. -/
def readTruth : Value → Checked Bool
  | .bool b => .good b
  | .int i => numberTruth i
  | .float x =>
    match x.toInt?.filter (· != -(Binary64.twoTo 63 : Int)) with
    | some i => numberTruth i
    | none => .defect .notTruth
  | .str s =>
    match truthWords.lookup (String.ofList (s.toList.map Char.toLower)) with
    | some b => .good b
    | none => .defect .unclearTruth
  | _ => .defect .notTruth

/-- A value, or nothing where the null value stands. -/
def readOptional {α : Type} (read : Value → Checked α) : Value → Checked (Option α)
  | .null => .good none
  | v => some <$> read v

/-- The items of a list from a position on. -/
def readItems {α : Type} (read : Value → Checked α) : Nat → List Value → Checked (List α)
  | _, [] => .good []
  | n, v :: vs => List.cons <$> (read v).under (.item n) <*> readItems read (n + 1) vs

/-- A list. -/
def readList {α : Type} (read : Value → Checked α) (v : Value) : Checked (List α) :=
  match v.items? with
  | some vs => readItems read 0 vs
  | none => .defect .notList

/-- The entries of a table with text keys. -/
def readEntries {α : Type} (read : Value → Checked α) :
    List (Value × Value) → Checked (List (String × α))
  | [] => .good []
  | (k, v) :: es =>
    let key := k.str?.getD ""
    (fun a es => (key, a) :: es) <$> (read v).under (.field key) <*> readEntries read es

/-- A table with text keys. -/
def readTable {α : Type} (read : Value → Checked α) (v : Value) : Checked (List (String × α)) :=
  match v.entries? with
  | some es => readEntries read es
  | none => .defect .notMapping

/-- A record inside another. -/
def readRecord {α : Type} (read : List (Value × Value) → Checked α) (v : Value) : Checked α :=
  match v.entries? with
  | some es => read es
  | none => .defect .notRecord

/-! ### Fields -/

/-- A field that has to be there. -/
def required {α : Type} (name : String) (read : Value → Checked α)
    (fields : List (Value × Value)) : Checked α :=
  match Value.atKey? name fields with
  | some v => (read v).under (.field name)
  | none => .bad [⟨[.field name], .missing⟩]

/-- A field that takes a given value when it is not there. -/
def withDefault {α : Type} (name : String) (default : α) (read : Value → Checked α)
    (fields : List (Value × Value)) : Checked α :=
  match Value.atKey? name fields with
  | some v => (read v).under (.field name)
  | none => .good default

end ApiNodes
