import ApiNodes.Api.Config
import ApiNodes.Api.Entry
import ApiNodes.Api.Event
import ApiNodes.Api.Resource

namespace ApiNodes.Api

/-!
# Records

The records that are read from mappings, and the assignment to their fields.  What is taken
from a document is fixed once it is read; events and products can be changed, and a changed
field holds whatever it is given.  Names that begin with an underscore are not fields: under
some of them a record keeps its own state, and to the others nothing is bound.
-/

/-- A record that was read, as a mapping. -/
def RecordKind.read (kind : RecordKind) (fields : List (Value × Value)) : Checked Value :=
  match kind with
  | parameter => Parameter.toValue <$> Parameter.read fields
  | operation => Operation.toValue <$> Operation.read fields
  | resource => Resource.toValue <$> Resource.read fields
  | config => Config.toValue <$> Config.read fields
  | event => WebhookEvent.toValue <$> WebhookEvent.read fields
  | product => Product.toValue <$> Product.read fields

/-- The record cannot be changed. -/
def RecordKind.isFixed : RecordKind → Bool
  | parameter | operation | resource | config => true
  | event | product => false

/-- Why a field cannot be assigned. -/
inductive AssignError
  | invalid (record : Invalid)
  | noField
  /-- What stands under the name can only be read. -/
  | readOnly
  /-- The value cannot stand for the state under the name. -/
  | misfit
  deriving DecidableEq, Repr

/-- The names under which state can only be read. -/
def readOnlyNames : List String :=
  ["__fields_set__", "__weakref__", "model_extra", "model_fields_set"]

/-- The name of the kind of a record. -/
def kindOwnName : String := "__class__"

/-- The name of the table of all fields. -/
def fieldsOwnName : String := "__dict__"

/-- A record after the assignment of its own state: the table of its fields can be replaced,
    and only the fields that the record declares are kept. -/
def assignState (name : String) (value record : Value) : Except AssignError Value :=
  if name = kindOwnName then .error .misfit
  else if name = fieldsOwnName then
    match value.entries? with
    | some es => .ok (.map (es.filter fun (k, _) => k.str?.any fun n => (record.get? n).isSome))
    | none => .error .misfit
  else .ok record

/-- A record after an assignment. -/
def RecordKind.assign (kind : RecordKind) (name : String) (value : Value) (record : Value) :
    Except AssignError Value :=
  let isState := Text.startsWith "_" name.toList
  if kind.isFixed && !isState then .error (.invalid ⟨kind, [⟨[.field name], .fixed⟩]⟩)
  else if name ∈ readOnlyNames then .error .readOnly
  else if isState then assignState name value record
  else
    match record with
    | .map es =>
      if (Value.atKey? name es).isSome then .ok (.map (Value.putKey (.str name) value es))
      else .error .noField
    | _ => .error .noField

end ApiNodes.Api
