import ApiNodes.Proofs.Run.Course
import ApiNodes.Run.Webhooks

namespace ApiNodes.Run

open Artifact (eventsPath typesPath webhookFiles)
open Files (Location Path)

/-!
# The course of a generation of webhook files

The files of a trigger node are one batch, and the version is recorded after it.

* `generateWebhooks_cases` — how such a run ends, and what it leaves.
-/

variable {g : WebhookGeneration} {loaded : Loaded} {w w' : World}
  {written files : List (String × String)} {versions : Option String}
  {events : List Api.WebhookEvent} {result : Except RunError (List Api.WebhookEvent)}

/-! ### Places -/

/-- The files of events are rendered under their paths. -/
theorem map_fst_webhookFiles (h : webhookFiles events = .ok files) :
    files.map (·.1) = [eventsPath, typesPath] := by
  unfold webhookFiles at h
  cases hevents : Template.fill Template.webhookEvents (Artifact.eventsScope events) <;>
    cases htypes : Template.fill Template.webhookTypes (Artifact.eventsScope events) <;>
    simp [hevents, htypes, bind, Except.bind, pure, Except.pure] at h
  subst h
  rfl

/-- They stand below the output. -/
theorem below_of_mem_webhookFiles {output : Path} {here : Location}
    (h : webhookFiles events = .ok files) {file : String × String} (hfile : file ∈ files) :
    output.location here <+: (place output file.1).location here := by
  have hleads : Leads file.1 := by
    have hname : file.1 ∈ [eventsPath, typesPath] := map_fst_webhookFiles h ▸
      List.mem_map_of_mem hfile
    rcases List.mem_pair.mp hname with heq | heq <;> rw [heq] <;>
      exact ⟨by decide +kernel, by decide +kernel⟩
  rw [hleads.location]
  exact List.prefix_append _ _

/-! ### Runs -/

/-- How a generation of webhook files from a loaded document ends, by the files that it wrote and
    the version document if it wrote that. -/
inductive WebhookCourse (g : WebhookGeneration) (loaded : Loaded) :
    List (String × String) → Option String → Except RunError (List Api.WebhookEvent) → Prop
  /-- The events of the document cannot be read. -/
  | unextracted {e : Api.ExtractError}
    (hevents : Api.events g.excluded loaded.document = .error e) :
    WebhookCourse g loaded [] none (.error (.extract e))
  /-- The files are not all written. -/
  | unwritten {events : List Api.WebhookEvent} {written : List (String × String)} {e : RunError}
    (hevents : Api.events g.excluded loaded.document = .ok events)
    (hrun : BatchRun [webhookFiles events] written (some e)) :
    WebhookCourse g loaded written none (.error e)
  /-- The version is not recorded. -/
  | unrecorded {events : List Api.WebhookEvent} {written : List (String × String)} {e : RunError}
    (hevents : Api.events g.excluded loaded.document = .ok events)
    (hrun : BatchRun [webhookFiles events] written none) :
    WebhookCourse g loaded written none (.error e)
  /-- The generation comes to its end. -/
  | returned {events : List Api.WebhookEvent} {written : List (String × String)} {text : String}
    (hevents : Api.events g.excluded loaded.document = .ok events)
    (hrun : BatchRun [webhookFiles events] written none)
    (hrecords : Records ⟨loaded.source, loaded.version⟩ g.component
      (webhookMetadata events.length) text) :
    WebhookCourse g loaded written (some text) (.ok events)

/-- What such a generation leaves: the version document over its files. -/
structure WebhookLeaves (g : WebhookGeneration) (written : List (String × String))
    (versions : Option String) (w w' : World) : Prop extends Continues w w' where
  files : w'.files = withText (g.versionFile.location w.current) versions
    (overlay w.current g.output written w.files)

/-- Its files stand below the output. -/
theorem WebhookCourse.below_of_mem (h : WebhookCourse g loaded written versions result)
    {file : String × String} (hfile : file ∈ written) (here : Location) :
    g.output.location here <+: (place g.output file.1).location here := by
  have key {events : List Api.WebhookEvent} {failure : Option RunError}
      (hrun : BatchRun [webhookFiles events] written failure) :
      g.output.location here <+: (place g.output file.1).location here := by
    obtain ⟨files, hbatch, -, hmem⟩ := hrun.exists_batch hfile
    exact below_of_mem_webhookFiles (List.mem_singleton.mp hbatch).symm hmem
  cases h with
  | unextracted => cases hfile
  | unwritten hevents hrun => exact key hrun
  | unrecorded hevents hrun => exact key hrun
  | returned hevents hrun => exact key hrun

/-- Write the files of events, if they are sound. -/
def writeEvents (g : WebhookGeneration) (events : List Api.WebhookEvent) : Run (List Path) := do
  let files ← rendered (webhookFiles events)
  requireSound files
  writeArtifacts g.output .webhooks "  Generated webhook file: " files

/-- What a generation does after that. -/
def concludeEvents (g : WebhookGeneration) (loaded : Loaded) (events : List Api.WebhookEvent) :
    Run (List Api.WebhookEvent) := do
  let _ ← recordComponent g.versionFile g.component ⟨loaded.source, loaded.version⟩
    (webhookMetadata events.length)
  inform .webhooks "Webhook events generation completed!"
  return events

/-- A generation whose events are read writes their files and concludes. -/
theorem generateWebhooksFrom_eq (hevents : Api.events g.excluded loaded.document = .ok events) :
    generateWebhooksFrom g loaded = (do
      inform .webhooks ("Found " ++ toString events.length ++ " webhook events")
      let _ ← writeEvents g events
      concludeEvents g loaded events) := by
  unfold generateWebhooksFrom writeEvents concludeEvents
  simp only [hevents, pure_bind, bind_assoc]

/-- What it leaves if it only writes the version document after its files. -/
theorem Overlays.webhookLeaves {v : World} (h : Overlays g.output written w v)
    (hcontinues : Continues v w')
    (hfiles : w'.files = withText (g.versionFile.location v.current) versions v.files) :
    WebhookLeaves g written versions w w' where
  toContinues := h.toContinues.trans hcontinues
  files := by rw [hfiles, h.files, h.current]

/-- How a generation concludes. -/
theorem concludeEvents_cases (h : concludeEvents g loaded events w = (result, w')) :
    (∃ e, result = .error e ∧ Paves w w') ∨ ∃ text : String, result = .ok events ∧
      Records ⟨loaded.source, loaded.version⟩ g.component (webhookMetadata events.length) text ∧
      Continues w w' ∧
      w'.files = withText (g.versionFile.location w.current) (some text) w.files :=
  recordComponent_last h

/-- The course of a generation from a document that was loaded. -/
theorem generateWebhooksFrom_course (h : generateWebhooksFrom g loaded w = (result, w')) :
    ∃ written versions, WebhookCourse g loaded written versions result ∧
      WebhookLeaves g written versions w w' := by
  cases hevents : Api.events g.excluded loaded.document with
  | error e =>
    -- no events, and nothing is written
    unfold generateWebhooksFrom at h
    rw [hevents] at h
    cases h
    exact ⟨[], none, .unextracted hevents,
      ((Still.refl _).paves.overlays _).webhookLeaves (Continues.refl _) rfl⟩
  | ok events =>
  rw [generateWebhooksFrom_eq hevents, bind_of_ok (inform_eq _ _)] at h
  have hlog := (still_noting w .info .webhooks
    ("Found " ++ toString events.length ++ " webhook events")).paves
  generalize w.noting .info .webhooks
    ("Found " ++ toString events.length ++ " webhook events") = w₁ at h hlog
  cases hbatch : writeEvents g events w₁ with
  | mk paths w₂ =>
  obtain ⟨written, hoverlays, hrun, -⟩ :=
    runsBatches_singleton (writesBelow_writeArtifacts _ _ _) _ _ _ hbatch
  replace hoverlays := (hlog.overlays g.output).trans hoverlays
  cases paths with
  | error e =>
    -- a file was rejected or could not be written
    rw [bind_of_error hbatch] at h
    cases h
    exact ⟨written, none, .unwritten hevents hrun,
      hoverlays.webhookLeaves (Continues.refl _) rfl⟩
  | ok paths =>
  rw [bind_of_ok hbatch] at h
  rcases concludeEvents_cases h with ⟨e, rfl, hpaves⟩ | ⟨text, rfl, hrecords, hcontinues, hfiles⟩
  · exact ⟨written, none, .unrecorded hevents hrun,
      hoverlays.webhookLeaves hpaves.toContinues hpaves.files⟩
  · exact ⟨written, some text, .returned hevents hrun hrecords,
      hoverlays.webhookLeaves hcontinues hfiles⟩

/-- The world when a generation of webhook files has begun. -/
def begunWebhooks (w : World) : World :=
  w.noting .info .webhooks "Generating webhook events from OpenAPI spec..."

/-- **How a generation of webhook files ends.** -/
theorem generateWebhooks_cases (h : generateWebhooks g w = (result, w')) :
    (∃ e v, load g.source g.timeout (begunWebhooks w) = (.error e, v) ∧ result = .error e ∧
      Still w w') ∨
      ∃ loaded v written versions, load g.source g.timeout (begunWebhooks w) = (.ok loaded, v) ∧
        WebhookCourse g loaded written versions result ∧
        WebhookLeaves g written versions w w' := by
  have hbegun : Still w (begunWebhooks w) := still_noting _ _ _ _
  replace h : (load g.source g.timeout >>= fun loaded =>
    ensuring (generateWebhooksFrom g loaded) (dropScratch loaded.scratch)) (begunWebhooks w) =
      (result, w') := h
  rcases (still_load _ _).bind_cases h with ⟨e, rfl, hload, hstill⟩ | ⟨loaded, v, hload, hstill, h⟩
  · exact .inl ⟨e, w', hload, rfl, hbegun.trans hstill⟩
  · have hstart := hbegun.trans hstill
    obtain ⟨u, hfrom, hend⟩ := ensuring_dropScratch h
    obtain ⟨written, versions, hcourse, hleaves⟩ := generateWebhooksFrom_course hfrom
    refine .inr ⟨loaded, v, written, versions, hload, hcourse, ?_, ?_⟩
    · exact hstart.paves.toContinues.trans (hleaves.toContinues.trans hend.paves.toContinues)
    · have hfiles := hleaves.files
      simp only [World.files, hstart.tree, hstart.current] at hfiles
      rw [World.files, hend.tree, hfiles]

end ApiNodes.Run
