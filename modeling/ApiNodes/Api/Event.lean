import ApiNodes.Api.Entry

namespace ApiNodes.Api

/-!
# Webhook events

The events that a document declares: the codes under `x-webhooks` that have an object under
`post`, sorted by code.
-/

/-- An event. -/
structure WebhookEvent where
  code : String
  name : String
  description : String
  payloadRef : Option String := none
  deriving DecidableEq, Repr

/-- Read an event. -/
def WebhookEvent.read (fields : List (Value × Value)) : Checked WebhookEvent :=
  WebhookEvent.mk <$> ApiNodes.required "event_code" readText fields
    <*> ApiNodes.required "name" readText fields
    <*> ApiNodes.required "description" readText fields
    <*> withDefault "payload_schema" none (readOptional readText) fields

/-- The mapping of an event. -/
def WebhookEvent.toValue (e : WebhookEvent) : Value :=
  .object [("event_code", .str e.code), ("name", .str e.name),
    ("description", .str e.description), ("payload_schema", .optional e.payloadRef)]

/-- The name of an event: the pieces of its code between periods, each with a capital
    initial. -/
def eventName (code : String) : String :=
  .ofList (Text.join [' '] ((Text.cut '.' code.toList).map Text.capitalizeChars))

/-- The reference of the payload. -/
def payloadRef (post : List (Value × Value)) : Value :=
  (((((Value.atKey? "requestBody" post).bind (·.get? "content")).bind
    (·.get? "application/json")).bind (·.get? "schema")).bind (·.get? "$ref")).getD .null

/-- The event of a code and its object. -/
def eventOf (code : String) (post : List (Value × Value)) : Except ExtractError WebhookEvent :=
  let description := firstTruthy [Value.atKey? "description" post, Value.atKey? "summary" post]
    (.str ("Triggered when " ++ code ++ " event occurs"))
  checked .event <|
    (fun description payloadRef => { code, name := eventName code, description, payloadRef })
    <$> (readText description).under (.field "description")
    <*> (readOptional readText (payloadRef post)).under (.field "payload_schema")

/-- The event of a key and its definition, unless it is no event or excluded. -/
def event? (excluded : List String) (key definition : Value) :
    Except ExtractError (Option WebhookEvent) :=
  match (definition.get? "post").bind Value.entries? with
  | none => .ok none
  | some post =>
    match key with
    | .str code => if code ∈ excluded then .ok none else some <$> eventOf code post
    | .bytes _ => .error .bytesKey
    | _ => .error .keyNotText

/-- The events of keys and definitions, in order. -/
def eventsOf (excluded : List String) :
    List (Value × Value) → Except ExtractError (List WebhookEvent)
  | [] => .ok []
  | (key, definition) :: es => do
    let first ← event? excluded key definition
    let rest ← eventsOf excluded es
    return first.toList ++ rest

/-- The events of a document, sorted by code. -/
def events (excluded : List String) (document : Value) :
    Except ExtractError (List WebhookEvent) := do
  let es ← eventsOf excluded (((document.get? "x-webhooks").bind Value.entries?).getD [])
  return es.mergeSort fun a b => decide (a.code ≤ b.code)

/-! ### Versions -/

/-- The version that a document gives, as text; nothing if the version has no text. -/
def version? (document : Value) : Option String :=
  match ((document.get? "info").bind (·.get? "version")).filter Value.isTruthy with
  | some v => v.text?
  | none => some "unknown"

end ApiNodes.Api
