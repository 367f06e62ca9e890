import ApiNodes.Api.Entry
import ApiNodes.Name.Unique

namespace ApiNodes.Api

/-!
# Extraction

The accepted entries of a document, in document order, are named within their resources
and grouped by resource.  The result is sorted by name; resources with reserved names are
left out.
-/

/-! ### Unique keys -/

/-- The names given within a resource. -/
def takenIn (resource : String) (done : List (String × String)) : List String :=
  (done.filter (·.1 == resource)).map Prod.snd

/-- Name endpoints one after the other.  `done` holds the resources and the names of those
    before. -/
def namesFrom (done : List (String × String)) : List Endpoint → List String
  | [] => []
  | e :: es =>
    let name := Name.unique e.key (takenIn e.resource done)
    name :: namesFrom (done ++ [(e.resource, name)]) es

/-- The names of endpoints: their keys, made unique within each resource. -/
def namesOf (endpoints : List Endpoint) : List String := namesFrom [] endpoints

/-- The endpoints whose names are not their keys, with those names. -/
def renamings (endpoints : List Endpoint) : List (Endpoint × String) :=
  (endpoints.zip (namesOf endpoints)).filter fun (e, name) => name != e.key

/-- The operation of an endpoint, and the resource that it belongs to. -/
structure Entry where
  resource : String
  operation : Operation
  deriving DecidableEq, Repr

/-- Read operations in order, up to the first that fails. -/
def readAll : List (Endpoint × String) → Except ExtractError (List Entry)
  | [] => .ok []
  | (e, name) :: es => do
    let operation ← e.read name
    let rest ← readAll es
    return ⟨e.resource, operation⟩ :: rest

/-! ### Grouping -/

/-- Each item once, in order of first appearance. -/
def distinct (xs : List String) : List String :=
  xs.foldl (fun seen x => if x ∈ seen then seen else seen ++ [x]) []

/-- The references of operations to schemas, each once, the request before the response. -/
def schemasOf (operations : List Operation) : List String :=
  distinct ((operations.flatMap fun o => o.requestRef.toList ++ o.responseRef.toList).filter
    (· != ""))

/-- The resource of a name and its operations.  It is described by the first tag of its
    first operation, or by its label. -/
def resourceOf (name : String) (operations : List Operation) : Resource :=
  let displayName := Name.label name
  let subject := ((operations.head?.bind (·.tags.head?)).getD displayName)
  { name, displayName, description := "Manage " ++ Text.lower subject
    fileName := Name.hyphenated name, handlerClass := Name.handlerClass name
    propertiesConstant := Name.propertiesConstant name, operations
    schemas := schemasOf operations }

/-- The operations of a resource among entries. -/
def operationsIn (entries : List Entry) (resource : String) : List Operation :=
  (entries.filter (·.resource == resource)).map (·.operation)

/-- The resources of entries, sorted by name. -/
def grouped (entries : List Entry) : List Resource :=
  let names := (distinct (entries.map (·.resource))).filter (!isReserved ·)
  (names.mergeSort fun a b => decide (a ≤ b)).map fun name =>
    resourceOf name (operationsIn entries name)

/-! ### Documents -/

/-- The entries of a document.  An endpoint that cannot be read comes before a later
    candidate that is none. -/
def entries (config : Config) (document : Value) : Except ExtractError (List Entry) := do
  let (endpoints, failure) := survey config (candidates document)
  let es ← readAll (endpoints.zip (namesOf endpoints))
  match failure with
  | none => return es
  | some e => throw e

/-- The resources of a document. -/
def extract (config : Config) (document : Value) : Except ExtractError (List Resource) := do
  return grouped (← entries config document)

/-- The endpoints that an extraction comes to: all, or those up to the first that cannot be
    read. -/
def reached (config : Config) (document : Value) : List Endpoint :=
  upToFailure (survey config (candidates document)).1
where
  /-- The endpoints up to the first that cannot be read. -/
  upToFailure : List Endpoint → List Endpoint
    | [] => []
    | e :: es =>
      match e.read e.key with
      | .ok _ => e :: upToFailure es
      | .error _ => [e]

end ApiNodes.Api
