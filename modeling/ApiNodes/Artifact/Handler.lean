import ApiNodes.Api.Resource
import ApiNodes.Name.Operation
import ApiNodes.Template.Handler
import ApiNodes.Typescript.Locals

namespace ApiNodes.Artifact

/-!
# Handlers

The handler of a resource, as the facts that its file is filled with: the methods in order
of the operations, each with the key that it is dispatched on and the request that it sends.
-/

/-! ### Method names -/

/-- The names of the operations' methods, each different from those before. -/
def namesOfMethods (r : Api.Resource) : List String :=
  Name.uniqueAll [] (r.operations.map fun o => Name.methodIdentifier (Name.method o.name r.name))

/-- The table of method names by operation key. -/
def methodNames (r : Api.Resource) : List (String × String) :=
  tableOf ((r.operations.map (·.name)).zip (namesOfMethods r))

/-! ### Methods -/

/-- The method of an operation. -/
structure HandlerMethod where
  name : String
  /-- The key that the method is dispatched on. -/
  operation : String
  httpMethod : String
  pathVariables : List Typescript.PathVariable
  /-- The method reads the additional fields and sends them as the query. -/
  hasAdditionalFields : Bool
  /-- The method reads the body and sends it. -/
  hasBody : Bool
  /-- The path of the request, as the body of a template literal. -/
  requestPath : String
  deriving DecidableEq, Repr

/-- The method of an operation, under a name. -/
def HandlerMethod.ofOperation (name : String) (o : Api.Operation) : HandlerMethod :=
  let found := Typescript.pathVariables (o.pathParameters.map (·.name))
  { name, operation := o.name, httpMethod := o.method, pathVariables := found
    hasAdditionalFields := !o.queryParameters.isEmpty || o.isList
    hasBody := o.isWrite
    requestPath := Typescript.requestPath o.path found }

/-- The value of a path variable. -/
def variableValue (v : Typescript.PathVariable) : Value :=
  .object [("name", .str v.name), ("var", .str v.ident)]

/-- The value of a method. -/
def HandlerMethod.toValue (m : HandlerMethod) : Value :=
  .object [("name", .str m.name), ("operation", .str m.operation),
    ("http_method", .str m.httpMethod),
    ("path_params", .list (m.pathVariables.map variableValue)),
    ("additional_fields", .bool m.hasAdditionalFields), ("has_body", .bool m.hasBody),
    ("api_path", .str m.requestPath)]

/-! ### Files -/

/-- The handler of a resource. -/
structure Handler where
  resource : Api.Resource
  methods : List HandlerMethod
  deriving DecidableEq, Repr

/-- The handler of a resource. -/
def Handler.ofResource (r : Api.Resource) : Handler :=
  let names := methodNames r
  ⟨r, r.operations.map fun o => .ofOperation ((lookup? o.name names).getD "") o⟩

/-- The types that are imported: one of them only where a method has inputs. -/
def Handler.typeImports (h : Handler) : List String :=
  if h.methods.any fun m => m.hasAdditionalFields || m.hasBody then
    ["IDataObject", "IExecuteFunctions"]
  else ["IExecuteFunctions"]

/-- The functions that are imported: the reader of bodies, where there are any. -/
def Handler.runtimeImports (h : Handler) : List String :=
  if h.methods.any (·.hasBody) then ["jsonParse"] else []

/-- The values by which the template is filled. -/
def Handler.scope (h : Handler) : Template.Scope :=
  [("resource", h.resource.toValue), ("type_imports", .list (h.typeImports.map .str)),
   ("runtime_imports", .list (h.runtimeImports.map .str)),
   ("methods", .list (h.methods.map HandlerMethod.toValue))]

/-- The text of a handler. -/
def Handler.text (h : Handler) : Except Template.RenderError String :=
  Template.fill Template.handler h.scope

/-- The text of the handler of a resource. -/
def handlerText (r : Api.Resource) : Except Template.RenderError String :=
  (Handler.ofResource r).text

end ApiNodes.Artifact
