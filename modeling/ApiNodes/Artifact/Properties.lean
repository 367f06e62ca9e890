import ApiNodes.Api.Resource
import ApiNodes.Name.Operation
import ApiNodes.Template.Properties
import ApiNodes.Text.LabelOrder

namespace ApiNodes.Artifact

/-!
# Properties

The properties of a resource, as the facts that their file is filled with: the options of
the operation selector, a field for each path parameter, the additional fields of the list
operations, and the operations that send a body.
-/

/-! ### Options -/

/-- An option of the operation selector. -/
structure OperationOption where
  displayName : String
  /-- The key of the operation. -/
  key : String
  /-- The description, as it stands inside a literal. -/
  description : String
  action : String
  deriving DecidableEq, Repr

/-- The option of an operation on a resource. -/
def OperationOption.ofOperation (resourceLabel : String) (o : Api.Operation) : OperationOption :=
  { displayName := Name.operationLabel o.name resourceLabel
    key := o.name
    description := Typescript.description o.description
    action := Name.operationAction o.name resourceLabel }

/-- The value of an option. -/
def OperationOption.toValue (o : OperationOption) : Value :=
  .object [("display_name", .str o.displayName), ("value", .str o.key),
    ("description", .str o.description), ("action", .str o.action)]

/-- The options of a resource, in the order of their labels. -/
def operationOptions (r : Api.Resource) : List OperationOption :=
  Text.inLabelOrder (·.displayName) (r.operations.map (.ofOperation r.displayName))

/-! ### Path fields -/

/-- The field of a path parameter. -/
structure PathField where
  parameter : Api.Parameter
  /-- The keys of the operations that have the parameter. -/
  operations : List String
  deriving DecidableEq, Repr

/-- A field with one more operation. -/
def PathField.usedBy (f : PathField) (key : String) : PathField :=
  if key ∈ f.operations then f else { f with operations := f.operations ++ [key] }

/-- Note the use of a parameter by an operation.  The first parameter of a name makes the
    field. -/
def addPathUse (key : String) (p : Api.Parameter) : List PathField → List PathField
  | [] => [⟨p, [key]⟩]
  | f :: fs =>
    if f.parameter.name = p.name then f.usedBy key :: fs else f :: addPathUse key p fs

/-- The fields of the path parameters of a resource, in order of first use. -/
def pathFields (r : Api.Resource) : List PathField :=
  r.operations.foldl
    (fun fields o => o.pathParameters.foldl (fun fields p => addPathUse o.name p fields) fields) []

/-- The value of a path field. -/
def PathField.toValue (f : PathField) : Value :=
  .object [("display_name", .str f.parameter.displayName), ("name", .str f.parameter.name),
    ("type", .str f.parameter.kind),
    ("required", .str (if f.parameter.required then "true" else "false")),
    ("operations", .list (f.operations.map .str)),
    ("description", .str (Typescript.description f.parameter.description))]

/-! ### Additional fields -/

/-- One of the additional fields. -/
structure AdditionalField where
  displayName : String
  name : String
  kind : String
  minimum : Option Nat := none
  /-- The default value, as it stands in the code. -/
  default : String
  /-- The description, as it stands inside a literal. -/
  description : String
  deriving DecidableEq, Repr

/-- The default values of the kinds of fields. -/
def defaults : List (String × String) :=
  [("string", "''"), ("number", "0"), ("boolean", "false"), ("multiOptions", "[]"),
   ("collection", "\x7b\x7d")]

/-- The field of a query parameter. -/
def AdditionalField.ofParameter (p : Api.Parameter) : AdditionalField :=
  { displayName := p.displayName, name := p.name, kind := p.kind
    default := (defaults.lookup p.kind).getD "''"
    description := Typescript.description p.description }

/-- The fields that every list operation has. -/
def paging : List AdditionalField :=
  [{ displayName := "Page Number", name := "pageNumber", kind := "number", minimum := some 1
     default := "1", description := "Requested page number" },
   { displayName := "Page Size", name := "pageSize", kind := "number", minimum := some 1
     default := "10", description := "Maximum number of items per page" }]

/-- A field is added unless there is one of its name. -/
def addField (fields : List AdditionalField) (f : AdditionalField) : List AdditionalField :=
  if f.name ∈ fields.map (·.name) then fields else fields ++ [f]

/-- The fields of list operations: one for each query parameter, and those of paging, in the
    order of their labels. -/
def additionalFields (listing : List Api.Operation) : List AdditionalField :=
  let declared := listing.flatMap fun o => o.queryParameters.map .ofParameter
  Text.inLabelOrder (·.displayName) ((declared ++ paging).foldl addField [])

/-- The value of an additional field. -/
def AdditionalField.toValue (f : AdditionalField) : Value :=
  .object [("display_name", .str f.displayName), ("name", .str f.name), ("type", .str f.kind),
    ("min_value", match f.minimum with | some n => .int n | none => .null),
    ("default", .str f.default), ("description", .str f.description)]

/-! ### Files -/

/-- The properties of a resource. -/
structure Properties where
  resource : Api.Resource
  /-- The key that is selected at first. -/
  defaultOperation : String
  options : List OperationOption
  pathFields : List PathField
  /-- The operations that the additional fields are shown for. -/
  listOperations : List String
  additionalFields : List AdditionalField
  /-- The operations that the body is shown for. -/
  writeOperations : List String
  deriving DecidableEq, Repr

/-- The properties of a resource, whose first operation is selected at first.  A resource
    without operations has none. -/
def Properties.ofResource? (r : Api.Resource) : Option Properties :=
  let listing := r.operations.filter (·.isList)
  r.operations.head?.map fun first =>
    { resource := r, defaultOperation := first.name, options := operationOptions r
      pathFields := Artifact.pathFields r
      listOperations := listing.map (·.name)
      additionalFields := if listing.isEmpty then [] else Artifact.additionalFields listing
      writeOperations := (r.operations.filter (·.isWrite)).map (·.name) }

/-- The values by which the template is filled. -/
def Properties.scope (p : Properties) : Template.Scope :=
  [("resource", p.resource.toValue), ("default_operation", .str p.defaultOperation),
   ("operation_options", .list (p.options.map OperationOption.toValue)),
   ("path_fields", .list (p.pathFields.map PathField.toValue)),
   ("list_operation_names", .list (p.listOperations.map .str)),
   ("list_fields", .list (p.additionalFields.map AdditionalField.toValue)),
   ("write_operation_names", .list (p.writeOperations.map .str))]

/-- The text of the properties. -/
def Properties.text (p : Properties) : Except Template.RenderError String :=
  Template.fill Template.properties p.scope

/-- The text of the properties of a resource. -/
def propertiesText (r : Api.Resource) : Except Template.RenderError String :=
  match Properties.ofResource? r with
  | some p => p.text
  | none => .error .noOperation

end ApiNodes.Artifact
