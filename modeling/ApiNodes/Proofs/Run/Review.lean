import ApiNodes.Proofs.Artifact.Sound
import ApiNodes.Proofs.Run.Failures
import ApiNodes.Proofs.Run.Replies
import Mathlib.Tactic.Common

namespace ApiNodes.Run

open Api (PlainDocument PlainResource Resource plainResource_of_mem)
open Artifact (handlerText handlerText_sound propertiesText propertiesText_sound registryFiles
  registryFiles_sound)
open Files (Path)
open Typescript (Passes Remark review review_eq_nil)

/-!
# Review of a generated node

Whatever the texts of a plain document are, the files of the node pass their review.  The
texts reach the files through the templates alone, and those were checked once for all
resources (`handlerText_sound`, `propertiesText_sound`, `registryFiles_sound`).

* `review_nodeFiles` — all files of a node together;
* `failsOnly_generateFrom` — no batch that a run writes is rejected;
* `review_of_plainDocument` — the two, from the document on.
-/

variable {g : Generation} {r : Resource} {resources : List Resource} {document : Value}
  {config : Api.Config} {label : String} {files : List (String × String)}

/-! ### All files of a node -/

/-- The files of a resource. -/
def bothFiles (r : Resource) : Except Template.RenderError (List (String × String)) := do
  return [(handlerPath r, ← handlerText r), (propertiesPath r, ← propertiesText r)]

/-- The files of resources, one resource after the other. -/
def allFiles : List Resource → Except Template.RenderError (List (String × String))
  | [] => return []
  | r :: rs => return (← bothFiles r) ++ (← allFiles rs)

/-- The files of a node: those of its resources, and the registry. -/
def nodeFiles (label : String) (resources : List Resource) :
    Except Template.RenderError (List (String × String)) := do
  return (← allFiles resources) ++ (← registryFiles label resources)

/-- Both files of a plain resource are rendered and are sound. -/
theorem bothFiles_sound (h : PlainResource r) :
    ∃ files, bothFiles r = .ok files ∧ ∀ file ∈ files, Passes .code file.2.toList .code := by
  obtain ⟨handler, hhandler, hpass⟩ := handlerText_sound h
  obtain ⟨properties, hproperties, hpass'⟩ := propertiesText_sound h
  refine ⟨[(handlerPath r, handler), (propertiesPath r, properties)], ?_, ?_⟩
  · simp [bothFiles, hhandler, hproperties, bind, Except.bind, pure, Except.pure]
  · simp [hpass, hpass']

/-- The files of plain resources are rendered and are sound. -/
theorem allFiles_sound (h : ∀ r ∈ resources, PlainResource r) :
    ∃ files, allFiles resources = .ok files ∧
      ∀ file ∈ files, Passes .code file.2.toList .code := by
  induction resources with
  | nil => exact ⟨[], rfl, by simp⟩
  | cons r rs ih =>
    obtain ⟨first, hfirst, hpass⟩ := bothFiles_sound (h r List.mem_cons_self)
    obtain ⟨rest, hrest, hpass'⟩ := ih fun r hr => h r (List.mem_cons_of_mem _ hr)
    refine ⟨first ++ rest, ?_, fun file hfile => ?_⟩
    · simp [allFiles, hfirst, hrest, bind, Except.bind, pure, Except.pure]
    · rcases List.mem_append.mp hfile with hfile | hfile
      · exact hpass file hfile
      · exact hpass' file hfile

/-- All files of a node with plain resources are rendered, and none is at fault. -/
theorem review_nodeFiles (h : ∀ r ∈ resources, PlainResource r) (hlabel : Remark label.toList) :
    ∃ files, nodeFiles label resources = .ok files ∧ review files = [] := by
  obtain ⟨all, hall, hpass⟩ := allFiles_sound h
  obtain ⟨registry, hregistry, hpass'⟩ := registryFiles_sound h hlabel
  refine ⟨all ++ registry, ?_, review_eq_nil fun file hfile => ?_⟩
  · simp [nodeFiles, hall, hregistry, bind, Except.bind, pure, Except.pure]
  · rcases List.mem_append.mp hfile with hfile | hfile
    · exact hpass file hfile
    · exact hpass' file hfile

/-! ### The batches of a run -/

/-- The files of a resource that are asked for are sound. -/
theorem resourceFiles_sound (hg : g.renderer = .standard) (h : PlainResource r)
    (hfiles : resourceFiles g r = .ok files) :
    ∀ file ∈ files, Passes .code file.2.toList .code := by
  obtain ⟨handler, hhandler, hpass⟩ := handlerText_sound h
  obtain ⟨properties, hproperties, hpass'⟩ := propertiesText_sound h
  have hrender : g.renderer.handler r = .ok handler ∧ g.renderer.properties r = .ok properties := by
    rw [hg]
    exact ⟨hhandler, hproperties⟩
  unfold resourceFiles at hfiles
  simp only [hrender.1, hrender.2] at hfiles
  cases hh : g.config.generateHandlers <;> cases hp : g.config.generateProperties <;>
    simp [hh, hp, bind, Except.bind, pure, Except.pure, Functor.map, Except.map] at hfiles <;>
    subst hfiles <;> simp [hpass, hpass']

/-- A rendering that returns returns the text of its template. -/
theorem rendered_returned {α : Type} {text : Except Template.RenderError α} {a : α}
    {w w' : World} (h : rendered text w = (.ok a, w')) : text = .ok a := by
  cases text with
  | error e => cases h
  | ok b =>
    cases h
    rfl

/-- A rendering fails without a review. -/
theorem failsOnly_rendered {α : Type} (text : Except Template.RenderError α) :
    FailsOnly IsUnreviewed (rendered text) := by
  cases text with
  | error e => exact failsOnly_throw fun _ h => by cases h
  | ok a => exact failsOnly_pure a

/-- Sound files are not rejected. -/
theorem failsOnly_requireSound {E : RunError → Prop}
    (h : ∀ file ∈ files, Passes .code file.2.toList .code) : FailsOnly E (requireSound files) := by
  rw [requireSound, review_eq_nil h]
  exact failsOnly_pure ()

/-- The files of plain resources are not rejected. -/
theorem failsOnly_generateResources (hg : g.renderer = .standard)
    (h : ∀ r ∈ resources, PlainResource r) :
    FailsOnly IsUnreviewed (generateResources g resources) := by
  induction resources with
  | nil => exact failsOnly_pure []
  | cons r rs ih =>
    have hresource : FailsOnly IsUnreviewed (generateResource g r) := by
      refine (failsOnly_record _ _ _).bind fun _ =>
        (failsOnly_rendered _).bind_returned fun w files v hfiles => ?_
      have hsound := resourceFiles_sound hg (h r List.mem_cons_self) (rendered_returned hfiles)
      exact (failsOnly_requireSound hsound).bind fun _ =>
        (failsOnly_writeArtifacts _ _ _ _).mono fun e => IsWriteFailure.isUnreviewed
    exact hresource.bind fun _ =>
      (ih fun r hr => h r (List.mem_cons_of_mem _ hr)).bind fun _ => failsOnly_pure _

/-- The registry of plain resources is not rejected. -/
theorem failsOnly_updateRegistry (hg : g.renderer = .standard)
    (hlabel : Remark g.nodeLabel.toList) (h : ∀ r ∈ resources, PlainResource r) :
    FailsOnly IsUnreviewed (updateRegistry g resources) := by
  have hshared : FailsOnly IsUnreviewed (ensureShared g.renderer g.output) := by
    refine FailsOnly.bind ?_ fun p => ((failsOnly_isThere p).mono fun e =>
      IsRefusal.isUnreviewed).bind fun there => ?_
    · exact ((failsOnly_checkNull _).mono fun e => IsRefusal.isUnreviewed).bind fun _ =>
        failsOnly_get.bind fun _ => failsOnly_pure _
    · split
      · exact failsOnly_pure none
      · exact (failsOnly_rendered _).bind fun _ =>
          ((failsOnly_writeArtifact _ _).mono fun e => IsWriteFailure.isUnreviewed).bind
            fun _ => (failsOnly_record _ _ _).bind fun _ => failsOnly_pure _
  refine (failsOnly_rendered _).bind_returned fun w files v hfiles => ?_
  obtain ⟨files', hfiles', hsound⟩ := registryFiles_sound h hlabel
  have heq : files = files' := by
    have := rendered_returned hfiles
    rw [hg] at this
    exact Except.ok.inj (this.symm.trans hfiles')
  rw [heq]
  exact (failsOnly_requireSound hsound).bind fun _ =>
    ((failsOnly_record _ _ _).bind fun _ => (failsOnly_writeArtifacts _ _ _ _).mono fun e =>
      IsWriteFailure.isUnreviewed).bind fun _ => hshared.bind fun _ => failsOnly_pure _

/-! ### Runs -/

/-- Resources that were extracted in a run are those of the document. -/
theorem extractResources_returned {w w' : World}
    (h : extractResources config document w = (.ok resources, w')) :
    Api.extract config document = .ok resources := by
  obtain ⟨_, v, -, h⟩ := bind_eq_ok_iff.mp h
  cases hextract : Api.extract config document with
  | error e =>
    rw [hextract] at h
    cases h
  | ok resources' =>
    rw [hextract] at h
    cases h
    rfl

/-- An extraction reviews nothing. -/
theorem failsOnly_extractResources : FailsOnly IsUnreviewed (extractResources config document) := by
  have hrecord (renamed : List (Api.Endpoint × String)) :
      FailsOnly IsUnreviewed (recordRenamings renamed) := by
    induction renamed with
    | nil => exact failsOnly_pure ()
    | cons first rest ih => exact (failsOnly_record _ _ _).bind fun _ => ih
  refine (hrecord _).bind fun _ => ?_
  split
  · exact failsOnly_pure _
  · exact failsOnly_throw fun _ h => by cases h

/-- A generation from a plain document is not rejected. -/
theorem failsOnly_generateFrom {loaded : Loaded} (hg : g.renderer = .standard)
    (hlabel : Remark g.nodeLabel.toList) (hd : PlainDocument loaded.document) :
    FailsOnly IsUnreviewed (generateFrom g loaded) := by
  have hclear : FailsOnly IsRefusal (clearNode g.output) :=
    (failsOnly_record _ _ _).bind fun _ => (failsOnly_cleanGenerated _ _).bind fun _ =>
      (failsOnly_cleanGenerated _ _).bind fun _ => failsOnly_pure _
  refine (hclear.mono fun e => IsRefusal.isUnreviewed).bind fun _ =>
    failsOnly_extractResources.bind_returned fun w resources v h => ?_
  have hplain : ∀ r ∈ resources, PlainResource r := fun r hr =>
    plainResource_of_mem hd (extractResources_returned h) hr
  refine (failsOnly_record _ _ _).bind fun _ =>
    (failsOnly_generateResources hg hplain).bind fun written => ?_
  have hend (registry : List Path) : FailsOnly IsUnreviewed (do
      let _ ← recordComponent g.versionFile g.component ⟨loaded.source, loaded.version⟩
        (generationMetadata g.config resources.length)
      inform .generation "Code generation completed successfully!"
      return { component := g.component, apiVersion := loaded.version
               resources := resources.map (·.name), files := written ++ registry : Outcome }) :=
    (failsOnly_recordComponent _ _ _ _).bind fun _ => (failsOnly_record _ _ _).bind fun _ =>
      failsOnly_pure _
  split
  · exact (failsOnly_updateRegistry hg hlabel hplain).bind hend
  · exact (failsOnly_pure []).bind hend

/-- The world when a generation has begun. -/
def begun (w : World) : World :=
  { w with log := w.log ++ [⟨.info, .generation, "Starting OpenAPI code generation..."⟩] }

/-- The document that a generation loads. -/
def Loads (g : Generation) (w : World) (document : Value) : Prop :=
  ∃ loaded w', load g.source g.timeout (begun w) = (.ok loaded, w') ∧ loaded.document = document

/-- A generation loads one document. -/
theorem Loads.unique {w : World} {document document' : Value} (h : Loads g w document)
    (h' : Loads g w document') : document = document' := by
  obtain ⟨loaded, v, hload, rfl⟩ := h
  obtain ⟨loaded', v', hload', rfl⟩ := h'
  rw [hload] at hload'
  cases hload'
  rfl

/-- Without a source of its own it loads the document that the network has. -/
theorem loads_of_network {w : World} {document : Value} (hsource : g.source = none)
    (htimeout : g.timeout = .null)
    (h : (load none .null (begun w)).1.toOption.map (·.document) = some document) :
    Loads g w document := by
  unfold Loads
  rw [hsource, htimeout]
  generalize load none .null (begun w) = run at h ⊢
  obtain ⟨result, v⟩ := run
  cases result with
  | error e => simp [Except.toOption] at h
  | ok loaded => exact ⟨loaded, v, rfl, by simpa [Except.toOption] using h⟩

/-- A generation loads its document and goes on from there, or fails to load it. -/
theorem generate_eq_error_imp {w w' : World} {e : RunError} (h : generate g w = (.error e, w')) :
    load g.source g.timeout (begun w) = (.error e, w') ∨
      ∃ loaded v, Loads g w loaded.document ∧
        ensuring (generateFrom g loaded) (dropScratch loaded.scratch) v = (.error e, w') := by
  rcases bind_eq_error_iff.mp h with h | ⟨_, v, hinform, h⟩
  · cases h
  · cases hinform
    rcases bind_eq_error_iff.mp h with h | ⟨loaded, v', hload, h⟩
    · exact .inl h
    · exact .inr ⟨loaded, v', ⟨loaded, v', hload, rfl⟩, h⟩

/-- **The texts of a plain document never break a generation.**  The files of the node are
    rendered, none of them is at fault, and a run that loads the document is not rejected. -/
theorem review_of_plainDocument (hd : PlainDocument document) (hlabel : Remark label.toList) :
    (∀ config resources, Api.extract config document = .ok resources →
      ∃ files, nodeFiles label resources = .ok files ∧ review files = []) ∧
    ∀ g w, g.renderer = .standard → g.nodeLabel = label → (∀ d, Loads g w d → d = document) →
      ∀ faults w', generate g w ≠ (.error (.rejected faults), w') := by
  constructor
  · intro config resources h
    exact review_nodeFiles (fun r hr => plainResource_of_mem hd h hr) hlabel
  · intro g w hg hglabel hloads faults w' h
    rcases generate_eq_error_imp h with h | ⟨loaded, v, hloaded, h⟩
    · exact failsOnly_load _ _ _ _ _ h faults rfl
    · have hplain : PlainDocument loaded.document := by rwa [hloads _ hloaded]
      have hfrom := failsOnly_generateFrom hg (by rwa [hglabel]) hplain
      exact hfrom.ensuring (failsOnly_dropScratch _) _ _ _ h faults rfl

/-- A document with a summary that tries to leave the texts that it is written into. -/
def hostileDocument : Value :=
  .object [("paths", .object [("/api/v1/u/\x7ba\x7d", .object [("get", .object
    [("summary", .str "*/'\x7b\x7b`")])])])]

/-- A world in which the network has the document. -/
def hostileWorld : World where
  replies := [(defaultAddress, .answered 200 none
    ("\x7b\x22paths\x22:\x7b\x22/api/v1/u/\x7ba\x7d\x22:\x7b\x22get\x22:\x7b" ++
      "\x22summary\x22:\x22*/'\x7b\x7b`\x22\x7d\x7d\x7d\x7d"))]

theorem plainDocument_hostileDocument : PlainDocument hostileDocument where
  paths := by
    intro c hc path hpath _
    have hall : (Api.candidates hostileDocument).map (·.path) = [.str "/api/v1/u/\x7ba\x7d"] := rfl
    have hmem := List.mem_map_of_mem (f := (·.path)) hc
    rw [hall, List.mem_singleton, hpath] at hmem
    cases hmem
    refine ⟨['u'], [['\x7b', 'a', '\x7d']], ⟨by simp, by simp [Name.All]; decide⟩, ?_, by decide⟩
    simpa using Api.PlainSegment.hole (s := ['a']) ⟨by simp, by simp [Name.All]; decide⟩
  queries := by
    intro c hc declared hdeclared
    have hall : (Api.candidates hostileDocument).all
        (Api.declaredParameters ·.operation |>.isEmpty) = true := rfl
    rw [List.isEmpty_iff.mp (List.all_eq_true.mp hall c hc)] at hdeclared
    cases hdeclared

theorem load_hostileWorld :
    (load none .null (begun hostileWorld)).1.toOption.map (·.document) = some hostileDocument :=
  map_document_load rfl (by decide +kernel) (by cbv) (by decide +kernel)

theorem loads_hostileWorld_iff {g : Generation} (hsource : g.source = none)
    (htimeout : g.timeout = .null) :
    Loads g hostileWorld document ↔ document = hostileDocument := by
  have hloads := loads_of_network hsource htimeout load_hostileWorld
  constructor
  · intro h
    exact h.unique hloads
  · rintro rfl
    exact hloads

theorem review_of_hostileDocument :
    (∃ resources files, Api.extract {} hostileDocument = .ok resources ∧
      nodeFiles "Nalpeiron" resources = .ok files ∧ review files = []) ∧
    Loads { output := .ofString "node" } hostileWorld hostileDocument ∧
    ∀ faults w', generate { output := .ofString "node" } hostileWorld ≠
      (.error (.rejected faults), w') := by
  have hlabel : Remark "Nalpeiron".toList :=
    ⟨by decide +kernel, by decide +kernel, by decide +kernel⟩
  obtain ⟨hreview, hgenerate⟩ := review_of_plainDocument plainDocument_hostileDocument hlabel
  refine ⟨?_, (loads_hostileWorld_iff rfl rfl).mpr rfl, hgenerate _ _ rfl rfl fun d hd =>
    (loads_hostileWorld_iff rfl rfl).mp hd⟩
  have hok : (Api.extract {} hostileDocument).toBool = true := by decide +kernel
  cases h : Api.extract {} hostileDocument with
  | error e => simp [h, Except.toBool] at hok
  | ok resources =>
    obtain ⟨files, hfiles, hsound⟩ := hreview {} resources h
    exact ⟨resources, files, rfl, hfiles, hsound⟩

end ApiNodes.Run
