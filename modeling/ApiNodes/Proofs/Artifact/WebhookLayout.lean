import ApiNodes.Artifact.Webhooks
import ApiNodes.Proofs.Template.Layout

namespace ApiNodes.Artifact

open Template

/-!
# Layout of the webhook files

The texts of the two files of a trigger node, given by the events: one has an option for every
event, and the other the union of their codes.

* `webhookFiles_eq` — both files are rendered, as their layouts.
-/

variable {scope : Scope} {events : List Api.WebhookEvent}

/-! ### Events -/

/-- The events are in their scope. -/
theorem value_events (events : List Api.WebhookEvent) :
    (Ref.name "events").value (eventsScope events) =
      .ok (.list (events.map Api.WebhookEvent.toValue)) := by
  simp [eventsScope]

/-- The option of an event. -/
def eventOptionText (e : Api.WebhookEvent) : String :=
  codeElement 1 (codeBlock .curly 1
    (codeEntry 2 "name" (Typescript.literal e.name) ++
      codeEntry 2 "value" (Typescript.literal e.code) ++
      codeEntry 2 "description" (codeLiteral (Typescript.description e.description))))

/-- A function whose body is one statement, with its comment. -/
def documentedFunctionText (about name parameters result statement : String) : String :=
  "\n" ++ codeComment [about] ++
    codeLine 0 ("export function " ++ name ++ inBrackets .round parameters ++ result ++ " " ++
      codeBlock .curly 0 (codeLine 1 statement))

/-- The comparison of the options with a code. -/
def findsCodeText : String :=
  inBrackets .round (inBrackets .round "option" ++ " => option.value === eventCode")

/-- What stands before the options. -/
def eventsHead : String :=
  codeComment ["Webhook event options for Nalpeiron Trigger", originLine] ++ "\n"

/-- The functions behind the options. -/
def eventsTail : String :=
  documentedFunctionText "Get webhook event option by event code" "getWebhookEventOption"
      "eventCode: string" "" ("return WEBHOOK_EVENT_OPTIONS.find" ++ findsCodeText ++ ";") ++
    documentedFunctionText "Get all available webhook event codes" "getAllWebhookEventCodes" ""
      (": string" ++ inBrackets .square "")
      ("return WEBHOOK_EVENT_OPTIONS.map" ++
        inBrackets .round (inBrackets .round "option" ++ " => option.value") ++ ";") ++
    documentedFunctionText "Check if an event code is valid" "isValidWebhookEvent"
      "eventCode: string" ": boolean" ("return WEBHOOK_EVENT_OPTIONS.some" ++ findsCodeText ++ ";")

/-- The file of the events. -/
def webhookEventsLayout (events : List Api.WebhookEvent) : String :=
  eventsHead ++
    codeLine 0 ("export const WEBHOOK_EVENT_OPTIONS = " ++
      codeBlock .square 0 (String.join (events.map eventOptionText)) ++ ";") ++
    eventsTail

/-- An option is filled in with its event. -/
theorem fill_eventOption (e : Api.WebhookEvent) :
    fill eventOption (("event", e.toValue) :: scope) = .ok (eventOptionText e) := by
  have hliteral (s : String) : codeLiteral (Typescript.escape s) = Typescript.literal s := rfl
  simp [eventOption, eventOptionText, fill_described, describe, hliteral, Api.WebhookEvent.toValue]

/-- The comparison has no holes. -/
theorem fill_findsCode (ps : List Part) :
    fill (findsCode :: ps) scope = (fill ps scope).map (findsCodeText ++ ·) := by
  simp [findsCode, findsCodeText]

/-- A function is filled in with its parts. -/
theorem fill_documentedFunction {about name : String} {parameters result statement : List Part} :
    fill (documentedFunction about name parameters result statement) scope =
      (fill parameters scope).bind fun p => (fill result scope).bind fun r =>
        (fill statement scope).map fun s => documentedFunctionText about name p r s := by
  cases hp : fill parameters scope <;> cases hr : fill result scope <;>
    cases hs : fill statement scope <;>
      simp [documentedFunction, documentedFunctionText, fill_plainComment, hp, hr, hs]

/-- **The file of the events is rendered**, as its layout. -/
theorem fill_webhookEvents (events : List Api.WebhookEvent) :
    fill webhookEvents (eventsScope events) = .ok (webhookEventsLayout events) := by
  have hoptions (ps : List Part) := fill_each ps eventOptionText (value_events events)
    fun e _ => fill_eventOption e
  simp [webhookEvents, webhookEventsLayout, eventsHead, eventsTail, fill_plainComment, hoptions,
    fill_documentedFunction, fill_findsCode]

/-! ### Types -/

/-- What stands before the union of the codes. -/
def typesHead : String :=
  codeComment ["Webhook event type definitions for Nalpeiron", originLine] ++ "\n" ++
    codeComment ["Common webhook event structure"] ++
    codeLine 0 ("export interface WebhookEventBase " ++
      codeBlock .curly 0 (codeLine 1 "eventId: string;" ++ codeLine 1 "eventDate: string;" ++
        codeLine 1 "eventCode: string;" ++ codeLine 1 "resourceId: string;" ++
        codeLine 1 "callAttempt: number;")) ++ "\n" ++
    codeComment ["Complete webhook event with payload"] ++
    codeLine 0 ("export interface WebhookEvent<T = any> extends WebhookEventBase " ++
      codeBlock .curly 0 (codeLine 1 "payload: T;")) ++ "\n" ++
    codeComment ["Webhook event codes as union type"]

/-- What stands behind it. -/
def typesTail : String :=
  "\n" ++ codeComment ["Generic payload interface for all webhook events"] ++
    codeLine 0 ("export interface WebhookPayload " ++
      codeBlock .curly 0 (codeLine 1 (inBrackets .square "key: string" ++ ": any;")))

/-- The file of the types. -/
def webhookTypesLayout (events : List Api.WebhookEvent) : String :=
  typesHead ++
    codeLine 0 ("export type WebhookEventCode = " ++
      Typescript.unionType (events.map (·.code)) ++ ";") ++
    typesTail

/-- The hole of the types is filled with the union of the codes. -/
theorem fill_codeUnion (events : List Api.WebhookEvent) :
    (Hole.union (.name "events") "event_code").fill (eventsScope events) =
      .ok (Typescript.unionType (events.map (·.code))) :=
  fill_union (value_events events) fun e _ => by simp [Api.WebhookEvent.toValue]

/-- **The file of the types is rendered**, as its layout. -/
theorem fill_webhookTypes (events : List Api.WebhookEvent) :
    fill webhookTypes (eventsScope events) = .ok (webhookTypesLayout events) := by
  simp [webhookTypes, webhookTypesLayout, typesHead, typesTail, fill_plainComment, fill_codeUnion]

/-! ### Both files -/

/-- **The files of events are rendered**, whatever the events. -/
theorem webhookFiles_eq (events : List Api.WebhookEvent) :
    webhookFiles events = .ok [(eventsPath, webhookEventsLayout events),
      (typesPath, webhookTypesLayout events)] := by
  rw [webhookFiles, fill_webhookEvents, fill_webhookTypes]
  rfl

end ApiNodes.Artifact
