import ApiNodes.Proofs.Run.Batches
import ApiNodes.Proofs.Run.Cleaning
import ApiNodes.Proofs.Run.Review

namespace ApiNodes.Run

open Files (Location Path Tree)

/-!
# The stages of a generation

A generation clears the old files of a node away, writes its batches, then perhaps the interface
that nodes share, and then records the version.

* `ensureShared_cases` — the shared interface;
* `recordComponent_cases`, `recordComponent_last` — the record of the version;
* `runsBatches_writeBatches` — the batches of a node;
* `prepare_cases`, `conclude_cases` — what is done up to the batches, and after them.
-/

variable {g : Generation} {loaded : Loaded} {w w' : World} {output p : Path} {l : Location}
  {resources : List Api.Resource} {written : List (String × String)}
  {shared text : Option String}
  {view : Location → Option ByteArray}

/-! ### The shared interface -/

/-- The path of the shared interface, as a run spells it. -/
def interfaceAt (w : World) (output : Path) : Path :=
  (output.join (.ofString sharedName)).resolved w.top w.current

/-- Finding the path does nothing to the tree. -/
theorem still_sharedPath (output : Path) : Keeps Still (sharedPath output) :=
  (still_checkNull output).bind fun _ => keeps_get.bind fun _ => keeps_pure _

/-- It is the path that a run finds. -/
theorem sharedPath_returned (h : sharedPath output w = (.ok p, w')) : p = interfaceAt w output := by
  obtain ⟨_, v, hnull, h⟩ := bind_eq_ok_iff.mp h
  have hstill := still_checkNull _ _ _ _ hnull
  rw [get_bind] at h
  cases h
  rw [interfaceAt, hstill.top, hstill.current]

/-- No name of it leads back. -/
theorem onward_interfaceAt (hw : w.Sound) (output : Path) :
    ".." ∉ (interfaceAt w output).names := by
  unfold interfaceAt Path.resolved
  split
  · exact Files.not_mem_plainLocation hw.onward _
  · exact Files.not_mem_plainLocation (by simp) _

/-- It leads to the shared interface. -/
theorem location_interfaceAt (hw : w.Sound) (output : Path) (here : Location) :
    (interfaceAt w output).location here = sharedLocation (output.location w.current) := by
  have honward := onward_interfaceAt hw output
  have hshared := location_sharedName output w.current
  rw [← hshared]
  unfold interfaceAt Path.resolved at honward ⊢
  unfold Path.location Path.origin
  cases hanchor : (output.join (.ofString sharedName)).anchor <;>
    simp only [hanchor] at honward ⊢ <;>
    rw [Files.plainLocation_of_onward honward] <;> rfl

/-- A text that is written at a location, if there is one. -/
def withText (l : Location) (text : Option String) (view : Location → Option ByteArray) :
    Location → Option ByteArray :=
  match text with
  | none => view
  | some s => Function.update view l (some s.toUTF8)

/-- Other files are as before. -/
theorem withText_of_ne {l m : Location} (h : text.isSome → m ≠ l) :
    withText l text view m = view m := by
  cases text with
  | none => rfl
  | some s => exact Function.update_of_ne (h rfl) _ _

/-- Where a file was there is one. -/
theorem isSome_withText {m : Location} (h : (view l).isSome) : (withText m text view l).isSome := by
  cases text with
  | none => exact h
  | some s =>
    rw [withText, Function.update_apply]
    split_ifs
    · rfl
    · exact h

/-- A world in which the shared interface was written where there was nothing, or left alone. -/
structure Shares (output : Path) (shared : Option String) (w w' : World) : Prop
    extends Continues w w' where
  files : w'.files = withText (sharedLocation (output.location w.current)) shared w.files
  absent : shared.isSome → w.tree.at? (sharedLocation (output.location w.current)) = none

/-- It is left alone where folders are made. -/
theorem Paves.shares (h : Paves w w') : Shares output none w w' :=
  ⟨h.toContinues, h.files, fun hsome => by cases hsome⟩

/-- The shared interface is written if there is nothing in its place. -/
theorem ensureShared_cases (hw : w.Sound) {renderer : Renderer}
    {r : Except RunError (Option Path)} (h : ensureShared renderer output w = (r, w')) :
    (∃ e, r = .error e ∧ Paves w w') ∨
      ∃ shared, r = .ok (shared.map fun _ => interfaceAt w output) ∧ Shares output shared w w' := by
  rcases (still_sharedPath _).bind_cases h with ⟨e, rfl, -, hw₁⟩ | ⟨p, w₁, hp, hw₁, h⟩
  · exact .inl ⟨e, rfl, hw₁.paves⟩
  obtain rfl := sharedPath_returned hp
  rcases (still_isThere _).bind_cases h with ⟨e, rfl, -, hw₂⟩ | ⟨there, w₂, hthere, hw₂, h⟩
  · exact .inl ⟨e, rfl, (hw₁.trans hw₂).paves⟩
  cases there with
  | true =>
    cases h
    exact .inr ⟨none, rfl, (hw₁.trans hw₂).paves.shares⟩
  | false =>
    rcases (still_rendered _).bind_cases h with ⟨e, rfl, -, hw₃⟩ | ⟨content, w₃, -, hw₃, h⟩
    · exact .inl ⟨e, rfl, ((hw₁.trans hw₂).trans hw₃).paves⟩
    have hstill := (hw₁.trans hw₂).trans hw₃
    cases hwrite : writeArtifact (interfaceAt w output) content w₃ with
    | mk result w₄ =>
    rcases writeArtifact_cases hwrite with
      ⟨e, rfl, -, hpaves⟩ | ⟨rfl, hreaches, hcontinues, hfiles⟩
    · rw [bind_of_error hwrite] at h
      cases h
      exact .inl ⟨e, rfl, hstill.paves.trans hpaves⟩
    · rw [bind_of_ok hwrite, bind_of_ok (inform_eq _ _)] at h
      cases h
      have hlocation := location_interfaceAt hw output w.current
      refine .inr ⟨some content, rfl,
        (hstill.paves.toContinues.trans hcontinues).noting _ _ _, ?_, fun _ => ?_⟩
      · rw [← hlocation, ← hstill.current]
        exact hfiles.trans (by rw [World.files, hstill.tree, withText])
      · -- the path is usable, so that it would have led to an entry
        by_contra hsome
        obtain ⟨e, he⟩ := Option.ne_none_iff_exists'.mp hsome
        have hentry : w.tree.entry w.current (interfaceAt w output) = .ok e := by
          have husable := hcontinues.whole ▸ hreaches.usable
          refine Tree.entry_eq_ok_iff.mpr ⟨hstill.tree ▸ husable, ?_, hlocation ▸ he⟩
          refine hw.tree.way (Tree.backs_of_onward (onward_interfaceAt hw _)) ?_
          rw [← Path.location, hlocation, he]
          rfl
        rw [← hw₁.tree, ← hw₁.current] at hentry
        rw [isThere_eq hreaches.null hentry] at hthere
        cases hthere

/-! ### The record of the version -/

/-- The text of a version document that was brought up to date with the record of a component. -/
def Records (source : ApiSource) (component : String) (metadata : Entries) (text : String) : Prop :=
  ∃ before updated generated, versionsText (withComponent before source updated component
    (componentRecord metadata generated)) = .ok text

/-- The version document is written as the last step, or nothing but folders is made. -/
theorem recordComponent_cases {component : String} {source : ApiSource} {metadata : Entries}
    {r : Except RunError Entries}
    (h : recordComponent p component source metadata w = (r, w')) :
    (∃ e, r = .error e ∧ Paves w w') ∨
      ∃ entries text, r = .ok entries ∧ Records source component metadata text ∧ Continues w w' ∧
        w'.files = Function.update w.files (p.location w.current) (some text.toUTF8) := by
  rcases (still_record _ _ _).paves.bind_cases h with ⟨e, rfl, -, h₀⟩ | ⟨_, w₀, -, h₀, h⟩
  · exact .inl ⟨e, rfl, h₀⟩
  rcases (still_versionsOrFresh _ _).paves.bind_cases h with
    ⟨e, rfl, -, h₁⟩ | ⟨before, w₁, -, h₁, h⟩
  · exact .inl ⟨e, rfl, h₀.trans h₁⟩
  rcases still_stampNow.paves.bind_cases h with ⟨e, rfl, -, h₂⟩ | ⟨updated, w₂, -, h₂, h⟩
  · exact .inl ⟨e, rfl, (h₀.trans h₁).trans h₂⟩
  rcases still_stampNow.paves.bind_cases h with ⟨e, rfl, -, h₃⟩ | ⟨generated, w₃, -, h₃, h⟩
  · exact .inl ⟨e, rfl, ((h₀.trans h₁).trans h₂).trans h₃⟩
  rcases (paves_makeFolders _).bind_cases h with ⟨e, rfl, -, h₄⟩ | ⟨_, w₄, -, h₄, h⟩
  · exact .inl ⟨e, rfl, (((h₀.trans h₁).trans h₂).trans h₃).trans h₄⟩
  have hpaves := (((h₀.trans h₁).trans h₂).trans h₃).trans h₄
  -- up to here at most folders are made
  cases hcontent : versionsText (withComponent before source updated component
      (componentRecord metadata generated)) with
  | error fault =>
    rw [hcontent] at h
    cases h
    exact .inl ⟨_, rfl, hpaves⟩
  | ok text =>
    simp only [hcontent] at h
    cases hput : writeText p text w₄ with
    | mk result w₅ =>
    rcases writeText_cases hput with ⟨e, rfl, rfl⟩ | ⟨rfl, -, hcontinues, hfiles⟩
    · rw [bind_of_error hput] at h
      cases h
      exact .inl ⟨e, rfl, hpaves⟩
    · rw [bind_of_ok hput, bind_of_ok (inform_eq _ _)] at h
      cases h
      refine .inr ⟨_, text, rfl, ⟨before, updated, generated, hcontent⟩,
        (hpaves.toContinues.trans hcontinues).noting _ _ _, ?_⟩
      exact hfiles.trans (by rw [hpaves.files, hpaves.current])

/-- A generation ends with the record of the version and a line in the log. -/
theorem recordComponent_last {α : Type} {component message : String} {source : ApiSource}
    {metadata : Entries} {origin : Origin} {a : α} {r : Except RunError α}
    (h : (recordComponent p component source metadata >>= fun _ =>
      inform origin message >>= fun _ => pure a) w = (r, w')) :
    (∃ e, r = .error e ∧ Paves w w') ∨ ∃ text : String, r = .ok a ∧
      Records source component metadata text ∧ Continues w w' ∧
      w'.files = withText (p.location w.current) (some text) w.files := by
  cases hrecord : recordComponent p component source metadata w with
  | mk result v =>
  rcases recordComponent_cases hrecord with
    ⟨e, rfl, hpaves⟩ | ⟨entries, text, rfl, hrecords, hcontinues, hfiles⟩
  · rw [bind_of_error hrecord] at h
    cases h
    exact .inl ⟨e, rfl, hpaves⟩
  · rw [bind_of_ok hrecord, bind_of_ok (inform_eq _ _)] at h
    cases h
    exact .inr ⟨text, rfl, hrecords, hcontinues.noting _ _ _, hfiles⟩

/-! ### Batches of a node -/

/-- The batches of a generation: the files of each resource, and the registry if it is asked for. -/
def batches (g : Generation) (resources : List Api.Resource) : List Batch :=
  resources.map (resourceFiles g) ++
    if g.config.updateRegistry then [g.renderer.registry g.nodeLabel resources] else []

/-- Write the batch of the registry. -/
def writeLastBatch (g : Generation) (resources : List Api.Resource) : Run (List Path) := do
  let files ← rendered (g.renderer.registry g.nodeLabel resources)
  requireSound files
  writeRegistry g.output files

/-- Write the batches of a generation. -/
def writeBatches (g : Generation) (resources : List Api.Resource) : Run (List Path) := do
  let written ← generateResources g resources
  let registry ← if g.config.updateRegistry then writeLastBatch g resources else pure []
  return written ++ registry

/-- The registry files are written below the output. -/
theorem writesBelow_writeRegistry (output : Path) : WritesBelow output (writeRegistry output) := by
  intro files w r w' h
  unfold writeRegistry at h
  rw [bind_of_ok (inform_eq _ _)] at h
  obtain ⟨written, hoverlays, hend⟩ := writesBelow_writeArtifacts _ _ _ _ _ _ _ h
  have hlog := (still_noting w .info .registry "Updating registry files...").paves
  exact ⟨written, (hlog.overlays output).trans hoverlays, hend⟩

/-- The batches of a generation are written, up to one that is not. -/
theorem runsBatches_writeBatches (g : Generation) (resources : List Api.Resource) :
    RunsBatches g.output (batches g resources) (writeBatches g resources) := by
  have hresources := runsBatches_generateResources g resources
  unfold batches writeBatches
  by_cases hregistry : g.config.updateRegistry = true
  · simp only [if_pos hregistry]
    exact hresources.append (runsBatches_singleton (writesBelow_writeRegistry g.output))
  · simp only [if_neg hregistry]
    exact hresources.append (runsBatches_nil g.output)

/-- A run that goes through its batches has written all registry files. -/
theorem exists_registry_file {name : String} (hg : g.renderer.Regular)
    (hregistry : g.config.updateRegistry = true) (h : BatchRun (batches g resources) written none)
    (hname : name ∈ registryNames) : ∃ file ∈ written, file.1 = name := by
  have hbatch : g.renderer.registry g.nodeLabel resources ∈ batches g resources := by
    simp [batches, hregistry]
  obtain ⟨files, hfiles, hwritten⟩ := h.rendered hbatch
  rw [← hg _ _ _ hfiles] at hname
  obtain ⟨file, hfile, heq⟩ := List.mem_map.mp hname
  exact ⟨file, hwritten hfile, heq⟩

/-- An extraction fails as that of the document does. -/
theorem extractResources_failed {config : Api.Config} {document : Value} {e : RunError}
    (h : extractResources config document w = (.error e, w')) :
    ∃ fault, e = .extract fault ∧ Api.extract config document = .error fault := by
  have hrecord (renamed : List (Api.Endpoint × String)) : FailsOnly (fun _ => False)
      (recordRenamings renamed) := by
    induction renamed with
    | nil => exact failsOnly_pure ()
    | cons first rest ih => exact (failsOnly_record _ _ _).bind fun _ => ih
  rcases bind_eq_error_iff.mp h with h | ⟨_, v, -, h⟩
  · exact absurd (hrecord _ _ _ _ h) id
  · cases hextract : Api.extract config document with
    | error fault =>
      rw [hextract] at h
      cases h
      exact ⟨fault, rfl, rfl⟩
    | ok resources =>
      rw [hextract] at h
      cases h

/-! ### The stages together -/

/-- What a generation that comes to its end returns. -/
def outcomeOf (g : Generation) (loaded : Loaded) (resources : List Api.Resource)
    (paths : List Path) : Outcome where
  component := g.component
  apiVersion := loaded.version
  resources := resources.map (·.name)
  files := paths

/-- What a generation does up to its batches. -/
def prepare (g : Generation) (loaded : Loaded) : Run (List Api.Resource × List Path) := do
  clearNode g.output
  let resources ← extractResources g.config loaded.document
  inform .generation ("Found " ++ toString resources.length ++ " resources to generate")
  let paths ← writeBatches g resources
  return (resources, paths)

/-- Write the shared interface if a generation has a registry. -/
def settleShared (g : Generation) : Run (Option Path) :=
  if g.config.updateRegistry then ensureShared g.renderer g.output else pure none

/-- What a generation does after its batches. -/
def conclude (g : Generation) (loaded : Loaded) (resources : List Api.Resource)
    (paths : List Path) : Run Outcome := do
  let shared ← settleShared g
  let _ ← recordComponent g.versionFile g.component ⟨loaded.source, loaded.version⟩
    (generationMetadata g.config resources.length)
  inform .generation "Code generation completed successfully!"
  return outcomeOf g loaded resources (paths ++ shared.toList)

/-- A generation prepares and concludes. -/
theorem generateFrom_eq (g : Generation) (loaded : Loaded) :
    generateFrom g loaded =
      prepare g loaded >>= fun found => conclude g loaded found.1 found.2 := by
  unfold generateFrom prepare conclude settleShared writeBatches writeLastBatch updateRegistry
  by_cases hregistry : g.config.updateRegistry = true
  · simp only [hregistry, if_true, bind_assoc, pure_bind, List.append_assoc]
    rfl
  · simp only [hregistry, if_false, bind_assoc, pure_bind, List.append_assoc, Bool.false_eq_true]
    rfl

/-- How the batches of a generation are come to, and how far it gets with them. -/
theorem prepare_cases {r : Except RunError (List Api.Resource × List Path)}
    (h : prepare g loaded w = (r, w')) :
    (∃ e, r = .error e ∧ IsRefusal e ∧ Clears (Removable g.output) w w') ∨
      (∃ e, r = .error (.extract e) ∧ Api.extract g.config loaded.document = .error e ∧
        Clears (Removable g.output) w w') ∨
      ∃ resources written v, Api.extract g.config loaded.document = .ok resources ∧
        Clears (Removable g.output) w v ∧ Overlays g.output written v w' ∧
        BatchRun (batches g resources) written (failure? r) ∧
        ∀ found, r = .ok found → found = (resources, written.map (place g.output ·.1)) := by
  unfold prepare at h
  rcases (clears_clearNode _).bind_cases h with ⟨e, rfl, hrun, hclears⟩ | ⟨_, v₁, -, h₁, h⟩
  · have hrefusal : FailsOnly IsRefusal (clearNode g.output) :=
      (failsOnly_record _ _ _).bind fun _ => (failsOnly_cleanGenerated _ _).bind fun _ =>
        (failsOnly_cleanGenerated _ _).bind fun _ => failsOnly_pure _
    exact .inl ⟨e, rfl, hrefusal _ _ _ hrun, hclears⟩
  rcases (still_extractResources _ _).bind_cases h with
    ⟨e, rfl, hrun, h₂⟩ | ⟨resources, v₂, hrun, h₂, h⟩
  · obtain ⟨fault, rfl, hextract⟩ := extractResources_failed hrun
    exact .inr (.inl ⟨fault, rfl, hextract, h₁.trans h₂.clears⟩)
  have hextract := extractResources_returned hrun
  rcases (still_record _ _ _).bind_cases h with ⟨e, -, hlog, -⟩ | ⟨_, v₃, -, h₃, h⟩
  · cases hlog
  have hclears := (h₁.trans h₂.clears).trans h₃.clears
  refine .inr (.inr ?_)
  -- after the extraction only the batches are left
  cases hwrite : writeBatches g resources v₃ with
  | mk result v₄ =>
  obtain ⟨written, hoverlays, hbatches, hpaths⟩ := runsBatches_writeBatches _ _ _ _ _ hwrite
  cases result with
  | error e =>
    rw [bind_of_error hwrite] at h
    cases h
    exact ⟨resources, written, v₃, hextract, hclears, hoverlays, hbatches, fun _ h => by cases h⟩
  | ok paths =>
    rw [bind_of_ok hwrite] at h
    cases h
    refine ⟨resources, written, v₃, hextract, hclears, hoverlays, hbatches, fun _ h => ?_⟩
    rw [← Except.ok.inj h, hpaths _ rfl]

/-- What a generation has done when it is through its batches. -/
theorem prepare_returned {found : List Api.Resource × List Path}
    (h : prepare g loaded w = (.ok found, w')) :
    ∃ v written, clearNode g.output w = (.ok (), v) ∧ Overlays g.output written v w' ∧
      BatchRun (batches g found.1) written none ∧ found.2 = written.map (place g.output ·.1) := by
  obtain ⟨_, v, hclear, hnext⟩ := bind_eq_ok_iff.mp h
  obtain ⟨resources, v₁, hextract, hnext⟩ := bind_eq_ok_iff.mp hnext
  obtain ⟨_, v₂, hlog, hnext⟩ := bind_eq_ok_iff.mp hnext
  obtain ⟨paths, v₃, hwrite, hend⟩ := bind_eq_ok_iff.mp hnext
  cases hend
  have hstill := (still_extractResources _ _ _ _ _ hextract).trans (still_record _ _ _ _ _ _ hlog)
  obtain ⟨written, hoverlays, hbatches, hpaths⟩ := runsBatches_writeBatches _ _ _ _ _ hwrite
  exact ⟨v, written, hclear, (hstill.paves.overlays _).trans hoverlays, hbatches, hpaths _ rfl⟩

/-- The shared interface is written only with a registry. -/
theorem settleShared_cases (hw : w.Sound) {r : Except RunError (Option Path)}
    (h : settleShared g w = (r, w')) :
    (∃ e, r = .error e ∧ Paves w w') ∨ ∃ shared,
      r = .ok (shared.map fun _ => interfaceAt w g.output) ∧ Shares g.output shared w w' ∧
      (shared.isSome → g.config.updateRegistry = true) := by
  unfold settleShared at h
  by_cases hregistry : g.config.updateRegistry = true
  · rw [if_pos hregistry] at h
    rcases ensureShared_cases hw h with hfails | ⟨shared, hr, hshares⟩
    · exact .inl hfails
    · exact .inr ⟨shared, hr, hshares, fun _ => hregistry⟩
  · rw [if_neg hregistry] at h
    cases h
    exact .inr ⟨none, rfl, (Still.refl _).paves.shares, fun hsome => by cases hsome⟩

/-- After its batches a generation writes the shared interface at most, and at its end the version
    document. -/
theorem conclude_cases (hw : w.Sound) {paths : List Path} {r : Except RunError Outcome}
    (h : conclude g loaded resources paths w = (r, w')) :
    ∃ shared v, Shares g.output shared w v ∧
      (shared.isSome → g.config.updateRegistry = true) ∧
      ((∃ e, r = .error e ∧ Paves v w') ∨
        ∃ text : String, r = .ok (outcomeOf g loaded resources
            (paths ++ (shared.map fun _ => interfaceAt w g.output).toList)) ∧
          Records ⟨loaded.source, loaded.version⟩ g.component
            (generationMetadata g.config resources.length) text ∧ Continues v w' ∧
          w'.files = withText (g.versionFile.location v.current) (some text) v.files) := by
  unfold conclude at h
  cases hfirst : settleShared g w with
  | mk result v =>
  rcases settleShared_cases hw hfirst with ⟨e, rfl, hpaves⟩ | ⟨shared, rfl, hshares, hsome⟩
  · rw [bind_of_error hfirst] at h
    cases h
    refine ⟨none, w', hpaves.shares, fun hsome => ?_, .inl ⟨e, rfl, (Still.refl _).paves⟩⟩
    cases hsome
  rw [bind_of_ok hfirst] at h
  exact ⟨shared, v, hshares, hsome, recordComponent_last h⟩

end ApiNodes.Run
