import ApiNodes.Template.Code

namespace ApiNodes.Template

/-!
# The templates of the webhook files

The events of a trigger node as options of its form, and the types of their payloads.
-/

/-- The option of an event. -/
def eventOption : List Part :=
  element 1 (block .curly 1
    [entry 2 "name" [filled (.escaped (.field "event" "name"))],
     entry 2 "value" [filled (.escaped (.field "event" "event_code"))],
     entry 2 "description" [filled (.described (.field "event" "description"))]])

/-- A function whose body is one statement, with its comment. -/
def documentedFunction (about name : String) (parameters result statement : List Part) :
    List Part :=
  .text "\n" :: plainComment [about] ++
  line 0 (.text ("export function " ++ name) :: round parameters :: result ++
    [.text " ", block .curly 0 [line 1 statement]])

/-- The comparison of the options with a code. -/
def findsCode : Part :=
  round [round [.text "option"], .text " => option.value === eventCode"]

/-- The file of the events. -/
def webhookEvents : List Part :=
  plainComment ["Webhook event options for Nalpeiron Trigger", originLine] ++
  [.text "\n"] ++
  line 0 [.text "export const WEBHOOK_EVENT_OPTIONS = ",
    block .square 0 [[.each "event" (.name "events") eventOption]], .text ";"] ++
  documentedFunction "Get webhook event option by event code" "getWebhookEventOption"
    [.text "eventCode: string"] []
    [.text "return WEBHOOK_EVENT_OPTIONS.find", findsCode, .text ";"] ++
  documentedFunction "Get all available webhook event codes" "getAllWebhookEventCodes"
    [] [.text ": string", square []]
    [.text "return WEBHOOK_EVENT_OPTIONS.map",
     round [round [.text "option"], .text " => option.value"], .text ";"] ++
  documentedFunction "Check if an event code is valid" "isValidWebhookEvent"
    [.text "eventCode: string"] [.text ": boolean"]
    [.text "return WEBHOOK_EVENT_OPTIONS.some", findsCode, .text ";"]

/-- The file of the types. -/
def webhookTypes : List Part :=
  plainComment ["Webhook event type definitions for Nalpeiron", originLine] ++
  [.text "\n"] ++
  plainComment ["Common webhook event structure"] ++
  line 0 [.text "export interface WebhookEventBase ",
    plainBlock .curly 0
      ["eventId: string;", "eventDate: string;", "eventCode: string;", "resourceId: string;",
       "callAttempt: number;"]] ++
  [.text "\n"] ++
  plainComment ["Complete webhook event with payload"] ++
  line 0 [.text "export interface WebhookEvent<T = any> extends WebhookEventBase ",
    plainBlock .curly 0 ["payload: T;"]] ++
  [.text "\n"] ++
  plainComment ["Webhook event codes as union type"] ++
  line 0 [.text "export type WebhookEventCode = ",
    .hole (.union (.name "events") "event_code"), .text ";"] ++
  [.text "\n"] ++
  plainComment ["Generic payload interface for all webhook events"] ++
  line 0 [.text "export interface WebhookPayload ",
    block .curly 0 [line 1 [square [.text "key: string"], .text ": any;"]]]

end ApiNodes.Template
