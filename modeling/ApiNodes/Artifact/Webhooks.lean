import ApiNodes.Api.Event
import ApiNodes.Template.Webhooks

namespace ApiNodes.Artifact

/-!
# Webhook files

The two files of a trigger node, by their paths within the node.
-/

/-- The path of the events. -/
def eventsPath : String := "webhooks/events.ts"

/-- The path of the types. -/
def typesPath : String := "webhooks/types.ts"

/-- The values by which the templates are filled. -/
def eventsScope (events : List Api.WebhookEvent) : Template.Scope :=
  [("events", .list (events.map Api.WebhookEvent.toValue))]

/-- The files of events. -/
def webhookFiles (events : List Api.WebhookEvent) :
    Except Template.RenderError (List (String × String)) := do
  return [(eventsPath, ← Template.fill Template.webhookEvents (eventsScope events)),
    (typesPath, ← Template.fill Template.webhookTypes (eventsScope events))]

end ApiNodes.Artifact
