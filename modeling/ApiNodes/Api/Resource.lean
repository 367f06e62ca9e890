import ApiNodes.Document.Fields

namespace ApiNodes.Api

/-!
# Resources

A resource is a noun of the service with the operations that can be called on it, and an
operation binds a method and a path.  Each record is read from a mapping and written back
as one.
-/

/-! ### Parameters -/

/-- One input of an operation. -/
structure Parameter where
  name : String
  displayName : String
  /-- The kind of field that asks for it. -/
  kind : String
  required : Bool
  description : String := ""
  /-- Where the request carries it: `path`, `query`, `header` or `body`. -/
  location : String
  deriving DecidableEq, Repr

/-- Read a parameter. -/
def Parameter.read (fields : List (Value × Value)) : Checked Parameter :=
  Parameter.mk <$> ApiNodes.required "name" readText fields
    <*> ApiNodes.required "display_name" readText fields
    <*> ApiNodes.required "type" readText fields
    <*> ApiNodes.required "required" readTruth fields
    <*> withDefault "description" "" readText fields
    <*> ApiNodes.required "location" readText fields

/-- The mapping of a parameter. -/
def Parameter.toValue (p : Parameter) : Value :=
  .object [("name", .str p.name), ("display_name", .str p.displayName), ("type", .str p.kind),
    ("required", .bool p.required), ("description", .str p.description),
    ("location", .str p.location)]

/-! ### Operations -/

/-- One call that a resource offers. -/
structure Operation where
  /-- The key of the operation, unique within its resource. -/
  name : String
  displayName : String
  description : String
  method : String
  path : String
  operationId : Option String := none
  parameters : List Parameter := []
  requestRef : Option String := none
  responseRef : Option String := none
  isList : Bool := false
  isNested : Bool := false
  tags : List String := []
  deriving DecidableEq, Repr

/-- Read an operation. -/
def Operation.read (fields : List (Value × Value)) : Checked Operation :=
  Operation.mk <$> required "name" readText fields
    <*> required "display_name" readText fields
    <*> required "description" readText fields
    <*> required "method" readText fields
    <*> required "path" readText fields
    <*> withDefault "operation_id" none (readOptional readText) fields
    <*> withDefault "parameters" [] (readList (readRecord Parameter.read)) fields
    <*> withDefault "request_body_schema" none (readOptional readText) fields
    <*> withDefault "response_schema" none (readOptional readText) fields
    <*> withDefault "is_list_operation" false readTruth fields
    <*> withDefault "is_nested_operation" false readTruth fields
    <*> withDefault "tags" [] (readList readText) fields

/-- The mapping of an operation. -/
def Operation.toValue (o : Operation) : Value :=
  .object [("name", .str o.name), ("display_name", .str o.displayName),
    ("description", .str o.description), ("method", .str o.method), ("path", .str o.path),
    ("operation_id", .optional o.operationId),
    ("parameters", .list (o.parameters.map Parameter.toValue)),
    ("request_body_schema", .optional o.requestRef),
    ("response_schema", .optional o.responseRef), ("is_list_operation", .bool o.isList),
    ("is_nested_operation", .bool o.isNested), ("tags", .list (o.tags.map .str))]

/-- The parameters that stand in the path. -/
def Operation.pathParameters (o : Operation) : List Parameter :=
  o.parameters.filter (·.location == "path")

/-- The parameters that go into the query. -/
def Operation.queryParameters (o : Operation) : List Parameter :=
  o.parameters.filter (·.location == "query")

/-- The methods whose requests have a body. -/
def writeMethods : List String := ["POST", "PUT", "PATCH"]

/-- The operation sends a body. -/
def Operation.isWrite (o : Operation) : Bool := o.method ∈ writeMethods

/-! ### Resources -/

/-- A noun of the service. -/
structure Resource where
  name : String
  displayName : String
  description : String
  fileName : String
  handlerClass : String
  propertiesConstant : String
  operations : List Operation
  /-- The schemas that the operations refer to. -/
  schemas : List String := []
  deriving DecidableEq, Repr

/-- Read a resource. -/
def Resource.read (fields : List (Value × Value)) : Checked Resource :=
  Resource.mk <$> required "name" readText fields
    <*> required "display_name" readText fields
    <*> required "description" readText fields
    <*> required "file_name" readText fields
    <*> required "handler_class_name" readText fields
    <*> required "properties_export_name" readText fields
    <*> required "operations" (readList (readRecord Operation.read)) fields
    <*> withDefault "schemas" [] (readList readText) fields

/-- The mapping of a resource. -/
def Resource.toValue (r : Resource) : Value :=
  .object [("name", .str r.name), ("display_name", .str r.displayName),
    ("description", .str r.description), ("file_name", .str r.fileName),
    ("handler_class_name", .str r.handlerClass),
    ("properties_export_name", .str r.propertiesConstant),
    ("operations", .list (r.operations.map Operation.toValue)),
    ("schemas", .list (r.schemas.map .str))]

end ApiNodes.Api
