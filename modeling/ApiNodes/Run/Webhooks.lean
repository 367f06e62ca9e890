import ApiNodes.Artifact.Webhooks
import ApiNodes.Run.Generation

namespace ApiNodes.Run

open Files (Path)

/-!
# Generating webhook files

The two webhook files of a trigger node are rendered and reviewed before either of them is
written.
-/

/-- What to generate. -/
structure WebhookGeneration where
  output : Path
  source : Option String := none
  versionFile : Path := defaultVersionFile
  component : String := defaultComponent ++ "Trigger"
  /-- The codes of the events to leave out. -/
  excluded : List String := []
  timeout : Value := .null

/-- What is recorded of a trigger node. -/
def webhookMetadata (events : Nat) : Entries :=
  [(.str "generatedBy", .str "webhook-generator"), (.str "webhookEventCount", .int events)]

/-- Generate the files from a document that was loaded. -/
def generateWebhooksFrom (g : WebhookGeneration) (loaded : Loaded) :
    Run (List Api.WebhookEvent) := do
  let events ←
    match Api.events g.excluded loaded.document with
    | .ok events => pure events
    | .error e => throw (.extract e)
  inform .webhooks ("Found " ++ toString events.length ++ " webhook events")
  let files ← rendered (Artifact.webhookFiles events)
  requireSound files
  let _ ← writeArtifacts g.output .webhooks "  Generated webhook file: " files
  let _ ← recordComponent g.versionFile g.component ⟨loaded.source, loaded.version⟩
    (webhookMetadata events.length)
  inform .webhooks "Webhook events generation completed!"
  return events

/-- Generate the files. -/
def generateWebhooks (g : WebhookGeneration) : Run (List Api.WebhookEvent) := do
  inform .webhooks "Generating webhook events from OpenAPI spec..."
  let loaded ← load g.source g.timeout
  ensuring (generateWebhooksFrom g loaded) (dropScratch loaded.scratch)

end ApiNodes.Run
