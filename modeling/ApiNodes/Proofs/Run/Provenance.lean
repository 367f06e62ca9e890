import ApiNodes.Proofs.Run.Returns
import ApiNodes.Proofs.Run.Webhooks

namespace ApiNodes.Run

open Files (Path)
open Typescript (review)

/-!
# What is recorded of a generation

The version document is the last file that a generation writes, so that it is written exactly by
the runs that return.  It then holds where the document came from, its version, and how much was
generated from it.

* `Records.recordsCount` — what a new record says;
* `version_recorded` — the record of both kinds of generations.
-/

variable {α : Type} {w w' : World} {text component key : String} {source : ApiSource}
  {metadata : Entries} {count : Nat}

/-! ### Records -/

/-- The text of a version document that says where the API was taken from, and that a component
    was generated from it with a count under a key. -/
def RecordsCount (text component key : String) (source : ApiSource) (count : Nat) : Prop :=
  ∃ entries record, versionsText entries = .ok text ∧
    Value.atKey? "apiSource" entries = some source.toValue ∧
    Value.atKey? component (componentsOf entries) = some (.map record) ∧
    Value.atKey? key record = some (.int count)

/-- A new record says what it was made from. -/
theorem Records.recordsCount (h : Records source component metadata text)
    (hcount : Value.atKey? key metadata = some (.int count)) (hkey : key ≠ "generatedAt") :
    RecordsCount text component key source count := by
  obtain ⟨before, updated, generated, htext⟩ := h
  refine ⟨_, Value.putKey (.str "generatedAt") (.str generated) metadata, htext, ?_, ?_, ?_⟩
  · -- the components are put in after the source, under a key of their own
    simp [withComponent, atKey?_putKey]
  · simp [componentsOf, withComponent, componentRecord, atKey?_putKey]
  · rw [atKey?_putKey, if_neg (Ne.symm hkey), hcount]

/-! ### Runs -/

/-- A run of one kind that records a version, by the document that it loads and by how much it
    finds in a document.  A run that fails leaves the version document as it was, one that cannot
    load its document leaves all files, and one that returns records what it was generated from. -/
structure RecordsVersion (run : Run α) (document : Except RunError Loaded)
    (found : Loaded → Except Api.ExtractError Nat) (versionFile : Path) (component key : String)
    (w : World) : Prop where
  failed : ∀ e w', run w = (.error e, w') →
    w'.files (versionFile.location w.current) = w.files (versionFile.location w.current)
  unloaded : ∀ e, document = .error e → ∃ w', run w = (.error e, w') ∧ w'.files = w.files
  returned : ∀ a w', run w = (.ok a, w') → ∃ loaded count text, document = .ok loaded ∧
    found loaded = .ok count ∧
    w'.files (versionFile.location w.current) = some text.toUTF8 ∧
    RecordsCount text component key ⟨loaded.source, loaded.version⟩ count

/-- A generation records the number of its resources. -/
theorem recordsVersion_generate {g : Generation} (hg : g.renderer.Regular) (hw : w.Sound)
    (hout : ¬g.output.location w.current <+: g.versionFile.location w.current)
    (hshared : g.versionFile.location w.current ≠ sharedLocation (g.output.location w.current)) :
    RecordsVersion (generate g) (load g.source g.timeout (begun w)).1
      (fun loaded => (·.length) <$> Api.extract g.config loaded.document) g.versionFile g.component
      "resourceCount" w where
  failed e w' h := by
    rcases generate_cases hw h with
      ⟨e, v, -, -, hstill⟩ | ⟨loaded, v, written, shared, versions, -, hcourse, hleaves⟩
    · rw [hstill.paves.files]
    · -- a file that was written would stand at the place of the version document
      by_contra hl
      rcases hleaves.of_files_ne hl with ⟨file, hfile, heq⟩ | hresource | ⟨-, heq⟩ | ⟨hsome, -⟩
      · rw [heq] at hout
        rcases hcourse.location_of_mem hg hfile w.current with hresource | hregistry
        · exact hout hresource.below
        · exact hout (below_of_mem_registryLocations hregistry)
      · exact hout hresource.below
      · exact hshared heq
      · cases hcourse <;> cases hsome
  unloaded e he := by
    obtain ⟨r, w', hrun⟩ : ∃ r w', generate g w = (r, w') := ⟨_, _, rfl⟩
    rcases generate_cases hw hrun with
      ⟨e', v, hload, rfl, hstill⟩ | ⟨loaded, v, written, shared, versions, hload, -, -⟩
    · rw [hload] at he
      cases he
      exact ⟨w', hrun, hstill.paves.files⟩
    · rw [hload] at he
      cases he
  returned outcome w' h := by
    rcases generate_cases hw h with
      ⟨e, v, -, heq, -⟩ | ⟨loaded, v, written, shared, versions, hload, hcourse, hleaves⟩
    · cases heq
    · cases hcourse with
      | returned hextract hrun hsome hrecords =>
        obtain ⟨cleared, -, hfiles⟩ := hleaves.files
        rename_i resources text
        refine ⟨loaded, resources.length, text, by rw [hload], by rw [hextract]; rfl, ?_,
          hrecords.recordsCount ?_ (by decide)⟩
        · rw [hfiles, withText, Function.update_self]
        · simp [generationMetadata, Value.atKey?, Value.isStr]

/-- A generation of webhook files records the number of its events. -/
theorem recordsVersion_generateWebhooks {g : WebhookGeneration}
    (hout : ¬g.output.location w.current <+: g.versionFile.location w.current) :
    RecordsVersion (generateWebhooks g) (load g.source g.timeout (begunWebhooks w)).1
      (fun loaded => (·.length) <$> Api.events g.excluded loaded.document) g.versionFile
      g.component "webhookEventCount" w where
  failed e w' h := by
    rcases generateWebhooks_cases h with
      ⟨e, v, -, -, hstill⟩ | ⟨loaded, v, written, versions, -, hcourse, hleaves⟩
    · rw [hstill.paves.files]
    · have hnone : versions = none := by cases hcourse <;> rfl
      rw [hleaves.files, hnone, withText]
      refine overlay_of_forall_ne fun file hfile heq => hout ?_
      rw [heq]
      exact hcourse.below_of_mem hfile w.current
  unloaded e he := by
    obtain ⟨r, w', hrun⟩ : ∃ r w', generateWebhooks g w = (r, w') := ⟨_, _, rfl⟩
    rcases generateWebhooks_cases hrun with
      ⟨e', v, hload, rfl, hstill⟩ | ⟨loaded, v, written, versions, hload, -, -⟩
    · rw [hload] at he
      cases he
      exact ⟨w', hrun, hstill.paves.files⟩
    · rw [hload] at he
      cases he
  returned events w' h := by
    rcases generateWebhooks_cases h with
      ⟨e, v, -, heq, -⟩ | ⟨loaded, v, written, versions, hload, hcourse, hleaves⟩
    · cases heq
    · cases hcourse with
      | returned hevents hrun hrecords =>
        rename_i text
        refine ⟨loaded, events.length, text, by rw [hload], by rw [hevents]; rfl, ?_,
          hrecords.recordsCount ?_ (by decide)⟩
        · rw [hleaves.files, withText, Function.update_self]
        · simp [webhookMetadata, Value.atKey?, Value.isStr]

/-- Webhook files that are not rendered or at fault are not written. -/
theorem written_of_unreviewed {events : List Api.WebhookEvent} {written : List (String × String)}
    {failure : Option RunError} (h : BatchRun [Artifact.webhookFiles events] written failure)
    (hfails : ∀ files, Artifact.webhookFiles events = .ok files → review files ≠ []) :
    written = [] ∧ failure ≠ none := by
  generalize Artifact.webhookFiles events = batch at h hfails
  cases h with
  | unrendered => exact ⟨rfl, by simp⟩
  | rejected => exact ⟨rfl, by simp⟩
  | stopped hsound => exact absurd hsound (hfails _ rfl)
  | written hsound => exact absurd hsound (hfails _ rfl)

/-- A trigger node whose events cannot be read, rendered and passed is left as it was. -/
theorem generateWebhooks_of_unreviewed {g : WebhookGeneration} {loaded : Loaded} {v : World}
    (hload : load g.source g.timeout (begunWebhooks w) = (.ok loaded, v))
    (hfails : ∀ events files, Api.events g.excluded loaded.document = .ok events →
      Artifact.webhookFiles events = .ok files → review files ≠ []) :
    ∃ e w', generateWebhooks g w = (.error e, w') ∧ w'.files = w.files := by
  obtain ⟨r, w', hrun⟩ : ∃ r w', generateWebhooks g w = (r, w') := ⟨_, _, rfl⟩
  rcases generateWebhooks_cases hrun with
    ⟨e, v', hload', -, -⟩ | ⟨loaded', v', written, versions, hload', hcourse, hleaves⟩
  · rw [hload] at hload'
    cases hload'
  rw [hload] at hload'
  cases hload'
  have hfiles := hleaves.files
  cases hcourse with
  | unextracted => exact ⟨_, w', hrun, hfiles⟩
  | unwritten hevents hbatch =>
    rw [(written_of_unreviewed hbatch fun files => hfails _ files hevents).1] at hfiles
    exact ⟨_, w', hrun, hfiles⟩
  | unrecorded hevents hbatch =>
    exact absurd rfl (written_of_unreviewed hbatch fun files => hfails _ files hevents).2
  | returned hevents hbatch =>
    exact absurd rfl (written_of_unreviewed hbatch fun files => hfails _ files hevents).2

/-- **The version is recorded exactly on success.**  Both kinds of generations write the version
    document only when they return, and it then says what they were generated from.  A run that
    cannot load its document changes no file, and neither does one for a trigger node whose events
    cannot be read, rendered and passed. -/
theorem version_recorded :
    (∀ (g : Generation) (w : World), g.renderer.Regular → w.Sound →
      ¬g.output.location w.current <+: g.versionFile.location w.current →
      g.versionFile.location w.current ≠ sharedLocation (g.output.location w.current) →
      RecordsVersion (generate g) (load g.source g.timeout (begun w)).1
        (fun loaded => (·.length) <$> Api.extract g.config loaded.document) g.versionFile
        g.component "resourceCount" w) ∧
    ∀ (g : WebhookGeneration) (w : World),
      ¬g.output.location w.current <+: g.versionFile.location w.current →
      RecordsVersion (generateWebhooks g) (load g.source g.timeout (begunWebhooks w)).1
        (fun loaded => (·.length) <$> Api.events g.excluded loaded.document) g.versionFile
        g.component "webhookEventCount" w ∧
      ∀ loaded v, load g.source g.timeout (begunWebhooks w) = (.ok loaded, v) →
        (∀ events files, Api.events g.excluded loaded.document = .ok events →
          Artifact.webhookFiles events = .ok files → review files ≠ []) →
        ∃ e w', generateWebhooks g w = (.error e, w') ∧ w'.files = w.files :=
  ⟨fun _ _ hg hw hout hshared => recordsVersion_generate hg hw hout hshared,
    fun _ _ hout => ⟨recordsVersion_generateWebhooks hout,
      fun _ _ hload hfails => generateWebhooks_of_unreviewed hload hfails⟩⟩

/-- A document with an event that is described by no text. -/
def untoldDocument : Value :=
  .object [("x-webhooks", .object [("a", .object [("post", .object [("summary", .bool true)])])])]

/-- A world in which the network has the document. -/
def untoldWorld : World where
  replies := [(defaultAddress, .answered 200 none
    ("\x7b\x22x-webhooks\x22:\x7b\x22a\x22:\x7b\x22post\x22:" ++
      "\x7b\x22summary\x22:true\x7d\x7d\x7d\x7d"))]

theorem load_untoldWorld :
    (load none .null (begunWebhooks untoldWorld)).1.toOption.map (·.document) =
      some untoldDocument :=
  map_document_load rfl (by decide +kernel) (by cbv) (by decide +kernel)

theorem version_recorded_hostileWorld :
    (∃ loaded text, (load none .null (begun hostileWorld)).1 = .ok loaded ∧
      (generate { output := .ofString "node" } hostileWorld).2.files ["api-version.json"] =
        some text.toUTF8 ∧
      RecordsCount text "NalpeironZentitle2" "resourceCount" ⟨loaded.source, loaded.version⟩ 1) ∧
    ∃ e w', generateWebhooks { output := .ofString "trigger" } untoldWorld = (.error e, w') ∧
      w'.files = untoldWorld.files := by
  constructor
  · obtain ⟨outcome, w', hrun⟩ := generate_hostileWorld
    have hrecords := version_recorded.1 { output := .ofString "node" } hostileWorld regular_standard
      sound_hostileWorld (by decide +kernel) (by decide +kernel)
    obtain ⟨loaded, count, text, hload, hcount, htext, hrecord⟩ := hrecords.returned _ _ hrun
    obtain rfl : count = 1 := by
      have hdocument := load_hostileWorld
      rw [show (load none .null (begun hostileWorld)).1 = .ok loaded from hload] at hdocument
      have hone : (Api.extract {} hostileDocument).toOption.map (·.length) = some 1 := by
        decide +kernel
      rw [← Option.some.inj hdocument] at hone
      change (fun rs : List Api.Resource => rs.length) <$> Api.extract {} loaded.document = _
        at hcount
      cases hresources : Api.extract {} loaded.document with
      | error e => simp [hresources, Except.toOption] at hone
      | ok resources =>
        rw [hresources] at hone hcount
        cases hcount
        exact Option.some.inj hone
    refine ⟨loaded, text, hload, ?_, hrecord⟩
    rw [hrun]
    exact htext
  · cases hload : load none .null (begunWebhooks untoldWorld) with
    | mk document v =>
    have hdocument := load_untoldWorld
    rw [hload] at hdocument
    cases document with
    | error e => cases hdocument
    | ok loaded =>
      have hfails : (Api.events [] untoldDocument).toOption.isNone = true := by decide +kernel
      rw [← Option.some.inj hdocument] at hfails
      exact (version_recorded.2 { output := .ofString "trigger" } untoldWorld (by decide +kernel)).2
        loaded v hload fun events files hevents => by
          rw [show Api.events [] loaded.document = .ok events from hevents] at hfails
          cases hfails

end ApiNodes.Run
