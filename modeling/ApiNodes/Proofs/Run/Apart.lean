import ApiNodes.Proofs.Run.Changes
import ApiNodes.Run.Webhooks

namespace ApiNodes.Run

open Files (Path)

/-!
# Steps that leave the scratch copies alone

A world knows of scratch copies by its `Attic`.  `Apart m` says that a computation neither changes
the attic nor asks what is in it, but for the removal of generated files: in a world with another
attic it ends in the same way, in the same world with that attic.

* `Apart.attic` — the copies that were there are left as they are;
* `apart_removeEnding` — the only step that asks whether a removal is denied, and at which paths;
* `apart_generateFrom`, `apart_generateWebhooksFrom` — all that is done with a document;
* `apart_fetch`, `load_eq_fetch` — and all that is done before it is kept.
-/

variable {α β : Type} {m : Run α} {w : World} {p : Path} {ending : String}

/-! ### Attics -/

/-- What a world knows of scratch copies: the steps of their folder, the spelling of their path,
    and the paths at which a removal is denied. -/
structure Attic where
  steps : List ScratchStep
  path : String
  unremovable : List String

/-- The attic of a world. -/
def World.attic (w : World) : Attic := ⟨w.scratchSteps, w.scratchPath, w.denied.remove⟩

/-- The world with another attic. -/
def World.withAttic (w : World) (a : Attic) : World :=
  { w with
    scratchSteps := a.steps
    scratchPath := a.path
    denied := { w.denied with remove := a.unremovable } }

/-- The endings of the names of the files that a generation clears away. -/
def clearedEndings : List String := [handlerEnding, propertiesEnding]

/-- Lists with the same paths of files that are cleared away. -/
def ClearAlike (paths paths' : List String) : Prop :=
  ∀ p : Path, (∃ ending ∈ clearedEndings, Text.endsWith ending p.name.toList = true) →
    (p.text ∈ paths ↔ p.text ∈ paths')

/-- A world has its own attic. -/
@[simp] theorem withAttic_attic (w : World) : w.withAttic w.attic = w := rfl

/-- The attic of a world is the last one it was given. -/
@[simp] theorem attic_withAttic (w : World) (a : Attic) : (w.withAttic a).attic = a := rfl

/-! ### Computations -/

/-- A computation that has nothing to do with the attic, as long as the removal of the same old
    files is denied. -/
def Apart (m : Run α) : Prop :=
  ∀ w a, ClearAlike a.unremovable w.denied.remove →
    m (w.withAttic a) = ((m w).1, (m w).2.withAttic a)

/-- It leaves the attic as it is. -/
theorem Apart.attic (h : Apart m) (w : World) : (m w).2.attic = w.attic := by
  have hsame := h w w.attic fun _ _ => Iff.rfl
  rw [withAttic_attic] at hsame
  exact congrArg (fun ended => ended.2.attic) hsame

/-- A value. -/
theorem apart_pure (x : α) : Apart (pure x) := fun _ _ _ => rfl

/-- A failure. -/
theorem apart_throw (e : RunError) : Apart (throw e : Run α) := fun _ _ _ => rfl

/-- One computation after another. -/
theorem Apart.bind {f : α → Run β} (hm : Apart m) (hf : ∀ x, Apart (f x)) : Apart (m >>= f) := by
  intro w a ha
  have hsame := hm w a ha
  have hattic := hm.attic w
  cases hrun : m w with
  | mk result v =>
    rw [hrun] at hsame hattic
    cases result with
    | error e => rw [bind_of_error hsame, bind_of_error hrun]
    | ok x =>
      rw [bind_of_ok hsame, bind_of_ok hrun]
      -- the first one left the attic as it was, so that the paths still agree for the second one
      have hremove : v.denied.remove = w.denied.remove := congrArg Attic.unremovable hattic
      exact hf x v a (by rwa [hremove])

/-- Looking at the world, for something other than its attic. -/
theorem apart_get_bind {f : World → Run α} (hf : ∀ w, Apart (f w))
    (hsame : ∀ w a, ClearAlike a.unremovable w.denied.remove → f (w.withAttic a) = f w) :
    Apart (get >>= f) := by
  intro w a ha
  rw [get_bind, get_bind, hsame w a ha]
  exact hf w w a ha

/-- A computation whose refusals are caught. -/
theorem Apart.attempt (hm : Apart m) : Apart (Run.attempt m) := by
  intro w a ha
  unfold Run.attempt
  rw [hm w a ha]
  cases m w with
  | mk result v =>
    cases result with
    | ok x => rfl
    | error e => cases e <;> rfl

/-- Writing to the log. -/
theorem apart_record (level : Level) (origin : Origin) (message : String) :
    Apart (record level origin message) := fun _ _ _ => rfl

/-- The stamp of the moment. -/
theorem apart_stampNow : Apart stampNow := by
  have htick : Apart tick := by
    intro w a _
    have hclock : (w.withAttic a).clock = w.clock := rfl
    unfold tick
    rw [get_bind, get_bind, hclock]
    rcases w.clock with _ | ⟨now, _ | ⟨later, rest⟩⟩ <;> rfl
  exact htick.bind fun _ => apart_pure _

/-- What is rendered. -/
theorem apart_rendered (text : Except Template.RenderError α) : Apart (rendered text) := by
  cases text with
  | error e => exact apart_throw _
  | ok x => exact apart_pure x

/-- The review of a batch. -/
theorem apart_requireSound (files : List (String × String)) : Apart (requireSound files) := by
  unfold requireSound
  split
  · exact apart_pure ()
  · exact apart_throw _

/-! ### Access to files -/

/-- An answer of the tree. -/
theorem apart_orRefuse (p : Path) (answer : Except Files.Fault α) : Apart (orRefuse p answer) := by
  cases answer with
  | ok x => exact apart_pure x
  | error fault => exact apart_throw _

/-- The check of a path. -/
theorem apart_checkNull (p : Path) : Apart (checkNull p) := by
  unfold checkNull
  split
  · exact apart_throw _
  · exact apart_pure ()

/-- A question about a path. -/
theorem apart_entryAt? (p : Path) : Apart (entryAt? p) := by
  unfold entryAt?
  split
  · exact apart_pure none
  · refine apart_get_bind (fun w => ?_) fun _ _ _ => rfl
    split
    · exact apart_pure _
    · exact apart_pure _
    · exact apart_pure _
    · exact apart_throw _

/-- The question for a file. -/
theorem apart_isFile (p : Path) : Apart (isFile p) := by
  refine (apart_entryAt? p).bind fun e => ?_
  split <;> exact apart_pure _

/-- The question for a folder. -/
theorem apart_isFolder (p : Path) : Apart (isFolder p) := by
  refine (apart_entryAt? p).bind fun e => ?_
  split <;> exact apart_pure _

/-- The question for anything. -/
theorem apart_isThere (p : Path) : Apart (isThere p) :=
  (apart_entryAt? p).bind fun _ => apart_pure _

/-- Reading a file. -/
theorem apart_fileContent (p : Path) : Apart (fileContent p) :=
  (apart_checkNull p).bind fun _ =>
    apart_get_bind (fun _ => apart_orRefuse p _) fun _ _ _ => rfl

/-- Listing a folder. -/
theorem apart_listFolder (p : Path) : Apart (listFolder p) := by
  refine apart_get_bind (fun w => ?_) fun _ _ _ => rfl
  split
  · exact (apart_throw _).bind fun _ => (apart_checkNull p).bind fun _ => apart_orRefuse p _
  · exact (apart_checkNull p).bind fun _ => apart_orRefuse p _

/-- A change of the tree. -/
theorem apart_change (p : Path)
    (f : Files.Tree → Files.Location → Except Files.Fault Files.Tree) : Apart (change p f) := by
  refine (apart_checkNull p).bind fun _ => ?_
  -- the world is set to one with another tree, which depends on the attic: both are compared
  intro w a _
  rw [get_bind, get_bind]
  dsimp only [World.withAttic]
  cases f w.tree w.current <;> rfl

/-- Writing a file. -/
theorem apart_putFile (p : Path) (data : ByteArray) : Apart (putFile p data) := by
  refine apart_get_bind (fun w => ?_) fun _ _ _ => rfl
  split
  · exact (apart_throw _).bind fun _ => apart_change p _
  · exact apart_change p _

/-- Removing a file with an ending of those that are cleared away. -/
theorem apart_dropFile (hending : ending ∈ clearedEndings)
    (hname : Text.endsWith ending p.name.toList = true) : Apart (dropFile p) := by
  refine apart_get_bind (fun w => ?_) fun w a ha => ?_
  · split
    · exact (apart_throw _).bind fun _ => apart_change p _
    · exact apart_change p _
  · have hdenied : (p.text ∈ (w.withAttic a).denied.remove) = (p.text ∈ w.denied.remove) :=
      propext (ha p ⟨ending, hending, hname⟩)
    simp only [hdenied]

/-- Making a folder unless there is one. -/
theorem apart_makeFolderOr (p : Path) {onMissing : Files.FileError → Run Unit}
    (h : ∀ e, Apart (onMissing e)) : Apart (makeFolderOr p onMissing) := by
  refine (apart_change p _).attempt.bind fun made => ?_
  split
  · exact apart_pure ()
  · split
    · exact h _
    · refine (apart_isFolder p).bind fun there => ?_
      split
      · exact apart_pure ()
      · exact apart_throw _

/-- Making a folder and those on the way to it. -/
theorem apart_makeFolders (p : Path) : Apart (makeFolders p) := by
  suffices h : ∀ depth p, Apart (makeFoldersUpTo depth p) from h _ p
  intro depth
  induction depth with
  | zero => exact fun p => apart_makeFolderOr p fun e => apart_throw _
  | succ depth ih =>
    intro p
    have hlast := apart_makeFolderOr p fun e => apart_throw (.file e)
    refine apart_makeFolderOr p fun e => ?_
    split
    · exact (apart_throw _).bind fun _ => (ih p.parent).bind fun _ => hlast
    · exact (ih p.parent).bind fun _ => hlast

/-! ### Generated files -/

/-- Writing a generated file. -/
theorem apart_writeArtifact (p : Path) (content : String) : Apart (writeArtifact p content) := by
  have hwrite : Apart (do makeFolders p.parent; writeText p content) :=
    (apart_makeFolders _).bind fun _ => apart_putFile p _
  refine hwrite.attempt.bind fun written => ?_
  split
  · exact apart_pure p
  · exact apart_throw _

/-- Writing generated files. -/
theorem apart_writeArtifacts (folder : Path) (origin : Origin) (announce : String)
    (files : List (String × String)) : Apart (writeArtifacts folder origin announce files) := by
  induction files with
  | nil => exact apart_pure []
  | cons file files ih =>
    exact (apart_writeArtifact _ _).bind fun p => (apart_record _ _ _).bind fun _ =>
      ih.bind fun _ => apart_pure _

/-- The entries of a folder. -/
theorem apart_candidates (folder : Path) : Apart (candidates folder) := by
  have hlisted : Apart (do
      if ← isFolder folder then return (← listFolder folder).map folder.child else return []) := by
    refine (apart_isFolder folder).bind fun there => ?_
    split
    · exact (apart_listFolder folder).bind fun _ => apart_pure _
    · exact apart_pure []
  refine hlisted.attempt.bind fun listed => ?_
  split
  · exact apart_pure _
  · exact (apart_record _ _ _).bind fun _ => apart_pure _

/-- Removing those of the paths that have an ending. -/
theorem apart_removeEnding (hending : ending ∈ clearedEndings) (paths : List Path) :
    Apart (removeEnding ending paths) := by
  induction paths with
  | nil => exact apart_pure []
  | cons p paths ih =>
    unfold removeEnding
    -- a file is only removed where its name has the ending
    by_cases hname : Text.endsWith ending p.name.toList = true
    · rw [if_pos hname]
      refine (apart_isFile p).bind fun there => ?_
      split
      · refine (apart_dropFile hending hname).attempt.bind fun dropped => ?_
        split
        · exact (apart_record _ _ _).bind fun _ => ih
        · exact (apart_record _ _ _).bind fun _ => ih.bind fun _ => apart_pure _
      · exact ih
    · rw [if_neg hname]
      exact ih

/-- Clearing the old files of a node away. -/
theorem apart_clearNode (output : Path) : Apart (clearNode output) := by
  have hclean (folder : Path) {ending : String} (hending : ending ∈ clearedEndings) :
      Apart (cleanGenerated folder ending) :=
    (apart_candidates folder).bind fun paths => apart_removeEnding hending paths
  exact (apart_record _ _ _).bind fun _ =>
    (hclean _ (List.mem_cons_self ..)).bind fun _ =>
      (hclean _ (List.mem_cons_of_mem _ (List.mem_cons_self ..))).bind fun _ => apart_pure ()

/-! ### Versions -/

/-- The version document, or a fresh one. -/
theorem apart_versionsOrFresh (p : Path) (source : ApiSource) :
    Apart (versionsOrFresh p source) := by
  have hread : Apart (readVersions p) := by
    unfold readVersions
    split
    · exact apart_pure none
    · refine (apart_fileContent p).attempt.bind fun data => ?_
      split
      · exact apart_pure none
      · split
        · exact apart_pure _
        · exact apart_throw _
  refine hread.bind fun found => ?_
  split
  · exact apart_pure _
  · exact apart_stampNow.bind fun _ => apart_pure _

/-- Recording a version. -/
theorem apart_recordComponent (p : Path) (component : String) (source : ApiSource)
    (metadata : Entries) : Apart (recordComponent p component source metadata) := by
  refine (apart_record _ _ _).bind fun _ => (apart_versionsOrFresh p source).bind fun before =>
    apart_stampNow.bind fun updated => apart_stampNow.bind fun generated =>
      (apart_makeFolders _).bind fun _ => ?_
  split
  · exact apart_throw _
  · exact (apart_putFile p _).bind fun _ => (apart_record _ _ _).bind fun _ => apart_pure _

/-! ### Nodes -/

/-- Extracting resources. -/
theorem apart_extractResources (config : Api.Config) (document : Value) :
    Apart (extractResources config document) := by
  have hrecord (renamed : List (Api.Endpoint × String)) : Apart (recordRenamings renamed) := by
    induction renamed with
    | nil => exact apart_pure ()
    | cons first rest ih => exact (apart_record _ _ _).bind fun _ => ih
  refine (hrecord _).bind fun _ => ?_
  split
  · exact apart_pure _
  · exact apart_throw _

/-- Writing the files of resources. -/
theorem apart_generateResources (g : Generation) (resources : List Api.Resource) :
    Apart (generateResources g resources) := by
  have hresource (r : Api.Resource) : Apart (generateResource g r) :=
    (apart_record _ _ _).bind fun _ => (apart_rendered _).bind fun files =>
      (apart_requireSound files).bind fun _ => apart_writeArtifacts _ _ _ files
  induction resources with
  | nil => exact apart_pure []
  | cons r rs ih => exact (hresource r).bind fun _ => ih.bind fun _ => apart_pure _

/-- Writing the shared interface. -/
theorem apart_ensureShared (renderer : Renderer) (output : Path) :
    Apart (ensureShared renderer output) := by
  have hpath : Apart (sharedPath output) :=
    (apart_checkNull output).bind fun _ =>
      apart_get_bind (fun _ => apart_pure _) fun _ _ _ => rfl
  refine hpath.bind fun p => (apart_isThere p).bind fun there => ?_
  have hcreate : Apart (do
      let content ← rendered renderer.shared
      let _ ← writeArtifact p content
      inform .registry ("  Created " ++ p.text)
      return some p) :=
    (apart_rendered _).bind fun content => (apart_writeArtifact p content).bind fun _ =>
      (apart_record _ _ _).bind fun _ => apart_pure _
  split
  · exact apart_pure none
  · exact hcreate

/-- Writing the registry. -/
theorem apart_updateRegistry (g : Generation) (resources : List Api.Resource) :
    Apart (updateRegistry g resources) :=
  (apart_rendered _).bind fun files => (apart_requireSound files).bind fun _ =>
    ((apart_record _ _ _).bind fun _ => apart_writeArtifacts _ _ _ files).bind fun _ =>
      (apart_ensureShared _ _).bind fun _ => apart_pure _

/-- **Generating a node** from a document that was loaded. -/
theorem apart_generateFrom (g : Generation) (loaded : Loaded) : Apart (generateFrom g loaded) := by
  refine (apart_clearNode _).bind fun _ => (apart_extractResources _ _).bind fun resources =>
    (apart_record _ _ _).bind fun _ => (apart_generateResources g resources).bind fun written => ?_
  have hend (registry : List Path) : Apart (do
      let _ ← recordComponent g.versionFile g.component ⟨loaded.source, loaded.version⟩
        (generationMetadata g.config resources.length)
      inform .generation "Code generation completed successfully!"
      return { component := g.component, apiVersion := loaded.version
               resources := resources.map (·.name), files := written ++ registry : Outcome }) :=
    (apart_recordComponent _ _ _ _).bind fun _ => (apart_record _ _ _).bind fun _ => apart_pure _
  split
  · exact (apart_updateRegistry g resources).bind hend
  · exact (apart_pure []).bind hend

/-- **Generating webhook files** from a document that was loaded. -/
theorem apart_generateWebhooksFrom (g : WebhookGeneration) (loaded : Loaded) :
    Apart (generateWebhooksFrom g loaded) := by
  have hend (events : List Api.WebhookEvent) : Apart (do
      inform .webhooks ("Found " ++ toString events.length ++ " webhook events")
      let files ← rendered (Artifact.webhookFiles events)
      requireSound files
      let _ ← writeArtifacts g.output .webhooks "  Generated webhook file: " files
      let _ ← recordComponent g.versionFile g.component ⟨loaded.source, loaded.version⟩
        (webhookMetadata events.length)
      inform .webhooks "Webhook events generation completed!"
      return events) :=
    (apart_record _ _ _).bind fun _ => (apart_rendered _).bind fun files =>
      (apart_requireSound files).bind fun _ => (apart_writeArtifacts _ _ _ files).bind fun _ =>
        (apart_recordComponent _ _ _ _).bind fun _ => (apart_record _ _ _).bind fun _ =>
          apart_pure _
  unfold generateWebhooksFrom
  split
  · exact (apart_pure _).bind hend
  · exact (apart_throw _).bind hend

/-! ### Documents -/

/-- A document from the network, and where it came from. -/
def fetchAddress (source : Option String) (timeout : Value) : Run (Value × String) := do
  let address := addressOf source
  inform .download ("Downloading OpenAPI spec from: " ++ address)
  match replyDocument (← ask address timeout) with
  | .ok document => return (document, address)
  | .error e => throw e

/-- A document from a file. -/
def fetchFile (p : Path) : Run (Value × String) := do
  inform .download ("Reading OpenAPI spec from: " ++ p.text)
  match readDocument p.name (← fileContent p) with
  | .ok document => return (document, p.text)
  | .error e => throw (.load e)

/-- A document from where `load` takes it, before a scratch copy of it is kept. -/
def fetch (source : Option String) (timeout : Value) : Run (Value × String) := do
  match source with
  | none => fetchAddress none timeout
  | some s =>
    let p := Path.ofString s
    if s != "" && !isAddress s && (← isFile p) then fetchFile p
    else fetchAddress source timeout

/-- **A document is loaded** by fetching it and keeping a copy of it. -/
theorem load_eq_fetch (source : Option String) (timeout : Value) :
    load source timeout = fetch source timeout >>= fun found => keep found.1 found.2 := by
  have haddress (source : Option String) : download source timeout =
      fetchAddress source timeout >>= fun found => keep found.1 found.2 := by
    unfold download fetchAddress
    simp only [bind_assoc]
    congr 1
    funext _
    congr 1
    funext reply
    cases replyDocument reply <;> rfl
  have hfile (p : Path) : loadFile p = fetchFile p >>= fun found => keep found.1 found.2 := by
    unfold loadFile fetchFile
    simp only [bind_assoc]
    congr 1
    funext _
    congr 1
    funext data
    cases readDocument p.name data <;> rfl
  -- in either case the copy is kept last
  cases source with
  | none => exact haddress none
  | some s =>
    unfold load fetch
    simp only [bind_assoc]
    congr 1
    funext there
    split
    · exact hfile _
    · exact haddress _

/-- Fetching a document. -/
theorem apart_fetch (source : Option String) (timeout : Value) : Apart (fetch source timeout) := by
  have hask (address : String) : Apart (ask address timeout) := fun _ _ _ => rfl
  have haddress (source : Option String) : Apart (fetchAddress source timeout) := by
    refine (apart_record _ _ _).bind fun _ => (hask _).bind fun reply => ?_
    split
    · exact apart_pure _
    · exact apart_throw _
  have hfile (p : Path) : Apart (fetchFile p) := by
    refine (apart_record _ _ _).bind fun _ => (apart_fileContent p).bind fun data => ?_
    split
    · exact apart_pure _
    · exact apart_throw _
  cases source with
  | none => exact haddress none
  | some s =>
    refine (apart_isFile _).bind fun there => ?_
    split
    · exact hfile _
    · exact haddress _

end ApiNodes.Run
