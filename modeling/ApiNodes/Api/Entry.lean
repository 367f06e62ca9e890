import ApiNodes.Api.Config
import ApiNodes.Api.OperationKey
import ApiNodes.Api.Resource
import ApiNodes.Document.Shown

namespace ApiNodes.Api

/-!
# Entries

An entry of a document is an operation object under a method of a path.  A configuration
accepts or rejects it; an accepted entry becomes an operation of the resource that the
first segment of its path names.
-/

/-! ### Failures -/

/-- The records that are read from documents and settings. -/
inductive RecordKind
  | parameter
  | operation
  | resource
  | config
  | event
  | product
  deriving DecidableEq, Repr

/-- A record whose fields have issues. -/
structure Invalid where
  record : RecordKind
  issues : List Issue
  deriving DecidableEq, Repr

/-- Why a document is given up. -/
inductive ExtractError
  /-- A record cannot be read. -/
  | invalid (record : Invalid)
  /-- A path, a method or an event code is no text. -/
  | keyNotText
  /-- A path or an event code is a row of bytes. -/
  | bytesKey
  /-- The name of a query parameter is no text. -/
  | parameterNameNotText
  /-- The status of a response is an integer that has no decimal text. -/
  | statusWithoutText
  deriving DecidableEq, Repr

/-- A record, or the failure that its issues make. -/
def checked {α : Type} (record : RecordKind) : Checked α → Except ExtractError α
  | .good a => .ok a
  | .bad issues => .error (.invalid ⟨record, issues⟩)

/-! ### Candidates -/

/-- An operation object with the keys that it stands under. -/
structure Candidate where
  path : Value
  method : Value
  operation : List (Value × Value)
  deriving Repr

/-- The operation objects of a document, in document order. -/
def candidates (document : Value) : List Candidate :=
  (((document.get? "paths").bind Value.entries?).getD []).flatMap fun (path, item) =>
    (item.entries?.getD []).filterMap fun (method, operation) =>
      operation.entries?.map fun fields => ⟨path, method, fields⟩

/-- The methods of the service. -/
def methods : List String := ["GET", "POST", "PUT", "DELETE", "PATCH"]

/-- First segments, and names of resources, that name no resource. -/
def reserved : List String := ["root", "api", "v1", "health", "status", "ping"]

/-- A name that is reserved, whatever the case of its letters. -/
def isReserved (name : String) : Bool := Text.lower name ∈ reserved

/-! ### Filters -/

/-- The tags of an operation. -/
def tagsOf (operation : List (Value × Value)) : List String :=
  (((Value.atKey? "tags" operation).bind Value.items?).getD []).filterMap Value.str?

/-- The method is among those to take. -/
def Config.allowsMethod (c : Config) (method : String) : Bool :=
  match c.allowedMethods with
  | none | some [] => true
  | some ms => method ∈ ms

/-- The operation carries one of the tags to take. -/
def Config.allowsTags (c : Config) (operation : List (Value × Value)) : Bool :=
  match c.includedTags with
  | none | some [] => true
  | some ts => ts.any (· ∈ tagsOf operation)

/-- The resource is to be left out. -/
def Config.excludesResource (c : Config) (resource : String) : Bool :=
  Text.lower resource ∈ (c.excludedResources.getD []).map Text.lower

/-- The operation id is to be left out of the resource. -/
def Config.excludesOperation (c : Config) (resource : String)
    (operation : List (Value × Value)) : Bool :=
  match Value.atKey? "operationId" operation with
  | some (.str i) =>
    i != "" && i ∈ (lookup? resource (c.excludedOperations.getD [])).getD []
  | _ => false

/-! ### Parameters -/

/-- The fields of the kinds of schema. -/
def fieldKinds : List (String × String) :=
  [("string", "string"), ("number", "number"), ("integer", "number"), ("boolean", "boolean"),
   ("array", "multiOptions"), ("object", "collection")]

/-- The kind of field that asks for a value of a schema: text unless the schema says
    otherwise. -/
def fieldKind (schema : Value) : String :=
  match schema.get? "type" with
  | some (.str t) => (fieldKinds.lookup t).getD "string"
  | _ => "string"

/-- The parameter of a placeholder. -/
def holeParameter (name : String) : Parameter :=
  { name, displayName := Name.label name, kind := "string", required := true,
    description := "The " ++ name ++ " identifier", location := "path" }

/-- The first value that is there and counts as present. -/
def firstTruthy (values : List (Option Value)) (otherwise : Value) : Value :=
  ((values.filterMap id).find? Value.isTruthy).getD otherwise

/-- A declared parameter, if it is a query parameter that is declared on the spot. -/
def queryParameter? (declared : Value) : Except ExtractError (Option Parameter) :=
  match declared.entries? with
  | none => .ok none
  | some fields =>
    if (Value.atKey? "$ref" fields).isSome then .ok none
    else if (Value.atKey? "in" fields).any (·.isStr "query") then
      match Value.atKey? "name" fields with
      | none => .ok none
      | some (.str name) =>
        let description := firstTruthy [Value.atKey? "description" fields] (.str "")
        checked .parameter <| (readText description).under (.field "description") |>
          Functor.map fun description => some
            { name, displayName := Name.label name
              kind := fieldKind ((Value.atKey? "schema" fields).getD .null)
              required := (Value.atKey? "required" fields).any Value.isTruthy
              description, location := "query" }
      | some _ => .error .parameterNameNotText
    else .ok none

/-- The declared query parameters of a list. -/
def queryParameters : List Value → Except ExtractError (List Parameter)
  | [] => .ok []
  | p :: ps => do
    let first ← queryParameter? p
    let rest ← queryParameters ps
    return first.toList ++ rest

/-- The parameters of an operation: those of the path, then the declared ones. -/
def parametersOf (path : String) (operation : List (Value × Value)) :
    Except ExtractError (List Parameter) := do
  let declared ← queryParameters (((Value.atKey? "parameters" operation).bind Value.items?).getD [])
  return (placeholderNames path).map holeParameter ++ declared

/-! ### References to schemas -/

/-- The reference of the JSON schema of a body that is given on the spot. -/
def schemaRef (container : Value) : Value :=
  if (container.get? "$ref").isSome then .null
  else
    (((((container.get? "content").bind (·.get? "application/json")).bind (·.get? "schema")).bind
      (·.get? "$ref"))).getD .null

/-- The reference of the request body. -/
def requestRef (operation : List (Value × Value)) : Value :=
  schemaRef ((Value.atKey? "requestBody" operation).getD .null)

/-- A status of success. -/
def isSuccess (status : Value) : Except ExtractError Bool :=
  match status.text? with
  | some s => .ok (Text.startsWith "2" s.toList)
  | none => .error .statusWithoutText

/-- The reference of the first of some responses that is one of success and has one. -/
def firstRef : List (Value × Value) → Except ExtractError Value
  | [] => .ok .null
  | (status, response) :: rs => do
    let ref := schemaRef response
    if (← isSuccess status) && ref.isTruthy then return ref else firstRef rs

/-- The reference of the first response of success that has one. -/
def responseRef (operation : List (Value × Value)) : Except ExtractError Value :=
  firstRef (((Value.atKey? "responses" operation).bind Value.entries?).getD [])

/-! ### Operations -/

/-- The label and the description of an operation.  A summary stands for both; without one
    the label is that of the key. -/
def describe (key : String) (operation : List (Value × Value)) : Value × Value :=
  let description := Value.atKey? "description" operation
  match (Value.atKey? "summary" operation).filter Value.isTruthy with
  | some summary => (summary, firstTruthy [description] summary)
  | none =>
    let label := (Name.verbs.lookup key).getD (Name.label key)
    (.str label, firstTruthy [description] (.str (label ++ " operation")))

/-! ### Endpoints -/

/-- An accepted operation object: the resource it belongs to, its key before that is made
    unique, its method and its path. -/
structure Endpoint where
  resource : String
  key : String
  method : String
  path : String
  operation : List (Value × Value)
  deriving Repr

/-- The method of a candidate, in capital letters; nothing if it is none of the service's. -/
def Candidate.method? (c : Candidate) : Except ExtractError (Option String) :=
  match c.method with
  | .str m => .ok (if Text.upper m ∈ methods then some (Text.upper m) else none)
  | .bytes _ => .ok none
  | _ => .error .keyNotText

/-- The path of a candidate. -/
def Candidate.pathText (c : Candidate) : Except ExtractError String :=
  match c.path with
  | .str p => .ok p
  | .bytes _ => .error .bytesKey
  | _ => .error .keyNotText

/-- The endpoint of a method and a path, or nothing when it is passed over: the path names
    no resource, or the configuration leaves the resource or the operation out. -/
def endpointAt? (config : Config) (method path : String) (operation : List (Value × Value)) :
    Option Endpoint :=
  match segments path with
  | [] => none
  | first :: rest =>
    let resource := Name.resource first
    if isReserved first || config.excludesResource resource ||
        config.excludesOperation resource operation then none
    else some ⟨resource, sanitizeKey (inferKey (first :: rest) method), method, path, operation⟩

/-- The endpoint of a candidate, or nothing when the candidate is passed over.  The path is
    only looked at when the method and the tags are accepted. -/
def Candidate.endpoint? (config : Config) (c : Candidate) :
    Except ExtractError (Option Endpoint) := do
  match ← c.method? with
  | none => return none
  | some method =>
    if config.allowsMethod method && config.allowsTags c.operation then
      return endpointAt? config method (← c.pathText) c.operation
    else return none

/-- The endpoints of candidates up to the first that fails, and its failure. -/
def survey (config : Config) : List Candidate → List Endpoint × Option ExtractError
  | [] => ([], none)
  | c :: cs =>
    match c.endpoint? config with
    | .error failure => ([], some failure)
    | .ok found =>
      let (es, failure) := survey config cs
      (found.toList ++ es, failure)

/-- The operation of an endpoint, under a name. -/
def Endpoint.read (e : Endpoint) (name : String) : Except ExtractError Operation := do
  let (displayName, description) := describe e.key e.operation
  let parameters ← parametersOf e.path e.operation
  let response ← responseRef e.operation
  checked .operation <|
    (fun displayName description operationId requestRef responseRef =>
      { name, displayName, description, method := e.method, path := e.path, operationId
        parameters, requestRef, responseRef, isList := e.key == "list"
        isNested := 2 < (segments e.path).length, tags := tagsOf e.operation })
    <$> (readText displayName).under (.field "display_name")
    <*> (readText description).under (.field "description")
    <*> (readOptional readText ((Value.atKey? "operationId" e.operation).getD .null)).under
      (.field "operation_id")
    <*> (readOptional readText (requestRef e.operation)).under (.field "request_body_schema")
    <*> (readOptional readText response).under (.field "response_schema")

end ApiNodes.Api
