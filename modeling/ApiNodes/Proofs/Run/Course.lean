import ApiNodes.Proofs.Run.Stages

namespace ApiNodes.Run

open Files (Location Path Tree)
open Typescript (review)

/-!
# The course of a generation

A generation can end at each of its stages (`Course`), and what it leaves are the files of the
stages that it went through (`Leaves`).

* `generateFrom_course` — a generation from a document that was loaded;
* `generate_cases` — the whole run;
* `finished_of_generate` — a run that returns.
-/

variable {g : Generation} {loaded : Loaded} {w v w' : World} {l : Location}
  {resources : List Api.Resource} {written : List (String × String)}
  {shared versions : Option String} {outcome : Outcome}

/-! ### Generations -/

/-- How a generation from a loaded document ends, by the files of its batches that it wrote, the
    shared interface if it wrote it, and the version document if it wrote that. -/
inductive Course (g : Generation) (loaded : Loaded) (w : World) :
    List (String × String) → Option String → Option String → Except RunError Outcome → Prop
  /-- Cleaning is refused. -/
  | uncleared {e} (hrefusal : IsRefusal e) : Course g loaded w [] none none (.error e)
  /-- The resources of the document cannot be read. -/
  | unextracted {e} (hextract : Api.extract g.config loaded.document = .error e) :
    Course g loaded w [] none none (.error (.extract e))
  /-- The batches are not all written. -/
  | unwritten {resources : List Api.Resource} {written : List (String × String)} {e : RunError}
    (hextract : Api.extract g.config loaded.document = .ok resources)
    (hrun : BatchRun (batches g resources) written (some e)) :
    Course g loaded w written none none (.error e)
  /-- The version is not recorded. -/
  | unrecorded {resources : List Api.Resource} {written : List (String × String)}
    {shared : Option String} {e : RunError}
    (hextract : Api.extract g.config loaded.document = .ok resources)
    (hrun : BatchRun (batches g resources) written none)
    (hshared : shared.isSome → g.config.updateRegistry = true) :
    Course g loaded w written shared none (.error e)
  /-- The generation comes to its end. -/
  | returned {resources : List Api.Resource} {written : List (String × String)}
    {shared : Option String} {text : String}
    (hextract : Api.extract g.config loaded.document = .ok resources)
    (hrun : BatchRun (batches g resources) written none)
    (hshared : shared.isSome → g.config.updateRegistry = true)
    (hrecords : Records ⟨loaded.source, loaded.version⟩ g.component
      (generationMetadata g.config resources.length) text) :
    Course g loaded w written shared (some text) (.ok (outcomeOf g loaded resources
      (written.map (place g.output ·.1) ++ (shared.map fun _ => interfaceAt w g.output).toList)))

/-- What a generation leaves: the version document over the shared interface over the files of its
    batches over what was not cleared away. -/
structure Leaves (g : Generation) (written : List (String × String))
    (shared versions : Option String) (w w' : World) : Prop extends Continues w w' where
  files : ∃ cleared : Location → Option ByteArray,
    (∀ l, cleared l = w.files l ∨
      cleared l = none ∧ Removable g.output w.current l) ∧
    w'.files = withText (g.versionFile.location w.current) versions
      (withText (sharedLocation (g.output.location w.current)) shared
        (overlay w.current g.output written cleared))
  absent : shared.isSome → w.tree.at? (sharedLocation (g.output.location w.current)) = none

/-- The stages of a generation, one after the other. -/
theorem leaves_of_stages {v₁ v₂ v₃ : World}
    (hclears : Clears (Removable g.output) w v₁)
    (hoverlays : Overlays g.output written v₁ v₂) (hshares : Shares g.output shared v₂ v₃)
    (hcontinues : Continues v₃ w')
    (hversions : w'.files = withText (g.versionFile.location v₃.current) versions v₃.files) :
    Leaves g written shared versions w w' where
  toContinues := hclears.toContinues.trans
    (hoverlays.toContinues.trans (hshares.toContinues.trans hcontinues))
  files := by
    refine ⟨v₁.files, hclears.files, ?_⟩
    rw [hversions, hshares.files, hoverlays.files, hshares.current, hoverlays.current,
      hclears.current]
  absent hsome := by
    have hnone := hshares.absent hsome
    rw [hoverlays.current, hclears.current] at hnone
    refine Tree.at?_eq_none ?_ fun hfolder => ?_
    · -- a file in its place would neither be cleared away nor be missing after the batches
      by_contra hfile
      have hkept : v₁.files (sharedLocation (g.output.location w.current)) =
          w.files (sharedLocation (g.output.location w.current)) := by
        rcases hclears.files (sharedLocation (g.output.location w.current)) with heq | ⟨-, hold⟩
        · exact heq
        · exact absurd (.inl hold.isResourceFile) (not_isGenerated_sharedLocation _)
      have hthere : (v₂.files (sharedLocation (g.output.location w.current))).isSome := by
        rw [hoverlays.files]
        refine isSome_overlay ?_
        rw [hkept]
        exact Option.isSome_iff_ne_none.mpr hfile
      rw [World.files, Tree.file?, hnone] at hthere
      cases hthere
    · have hstays := hoverlays.folders _ (hclears.folders _ hfolder)
      rw [hnone] at hstays
      cases hstays

/-- Nothing is written where folders are made at most. -/
theorem Leaves.of_clears (h : Clears (Removable g.output) w w') : Leaves g [] none none w w' :=
  leaves_of_stages h ((Still.refl _).paves.overlays _) (Still.refl _).paves.shares
    (Continues.refl _) rfl

/-- **The course of a generation** from a document that was loaded. -/
theorem generateFrom_course (hw : w.Sound) {r : Except RunError Outcome}
    (h : generateFrom g loaded w = (r, w')) :
    ∃ written shared versions, Course g loaded w written shared versions r ∧
      Leaves g written shared versions w w' := by
  rw [generateFrom_eq] at h
  cases hprepare : prepare g loaded w with
  | mk found v =>
  rcases prepare_cases hprepare with ⟨e, rfl, hrefusal, hclears⟩ | ⟨e, rfl, hextract, hclears⟩ |
    ⟨resources, written, u, hextract, hclears, hoverlays, hrun, hfound⟩
  · -- the folders were not cleared
    rw [bind_of_error hprepare] at h
    cases h
    exact ⟨[], none, none, .uncleared hrefusal, .of_clears hclears⟩
  · -- the extraction failed
    rw [bind_of_error hprepare] at h
    cases h
    exact ⟨[], none, none, .unextracted hextract, .of_clears hclears⟩
  cases found with
  | error e =>
    -- some of the files were written, and then one was not
    rw [bind_of_error hprepare] at h
    cases h
    exact ⟨written, none, none, .unwritten hextract hrun,
      leaves_of_stages hclears hoverlays (Still.refl _).paves.shares (Continues.refl _) rfl⟩
  | ok found =>
  rw [bind_of_ok hprepare] at h
  obtain rfl := hfound _ rfl
  have hsound := hoverlays.soundWorld (hclears.soundWorld hw)
  obtain ⟨shared, u', hshares, hsome, hend⟩ := conclude_cases hsound h
  rcases hend with ⟨e, rfl, hpaves⟩ | ⟨text, rfl, hrecords, hcontinues, hfiles⟩
  · exact ⟨written, shared, none, .unrecorded hextract hrun hsome,
      leaves_of_stages hclears hoverlays hshares hpaves.toContinues hpaves.files⟩
  · refine ⟨written, shared, some text, ?_,
      leaves_of_stages hclears hoverlays hshares hcontinues hfiles⟩
    have hpath : interfaceAt v g.output = interfaceAt w g.output := by
      rw [interfaceAt, interfaceAt, hoverlays.top, hoverlays.current, hclears.top,
        hclears.current]
    rw [hpath]
    exact .returned hextract hrun hsome hrecords

/-- What a batch of a node is. -/
theorem mem_batches {files : List (String × String)} (h : .ok files ∈ batches g resources) :
    (∃ r ∈ resources, resourceFiles g r = .ok files) ∨
      g.config.updateRegistry = true ∧ g.renderer.registry g.nodeLabel resources = .ok files := by
  rcases List.mem_append.mp h with h | h
  · obtain ⟨r, hr, hfiles⟩ := List.mem_map.mp h
    exact .inl ⟨r, hr, hfiles⟩
  · split_ifs at h with hregistry
    · exact .inr ⟨hregistry, (List.mem_singleton.mp h).symm⟩
    · cases h

/-- What a generation writes belongs to a sound batch of its resources. -/
theorem Course.exists_batch {r : Except RunError Outcome}
    (h : Course g loaded w written shared versions r) {file : String × String}
    (hfile : file ∈ written) :
    ∃ resources files, Api.extract g.config loaded.document = .ok resources ∧
      .ok files ∈ batches g resources ∧ review files = [] ∧ file ∈ files := by
  have key {resources : List Api.Resource} {failure : Option RunError}
      (hextract : Api.extract g.config loaded.document = .ok resources)
      (hrun : BatchRun (batches g resources) written failure) :
      ∃ resources files, Api.extract g.config loaded.document = .ok resources ∧
        .ok files ∈ batches g resources ∧ review files = [] ∧ file ∈ files := by
    obtain ⟨files, hbatch⟩ := hrun.exists_batch hfile
    exact ⟨resources, files, hextract, hbatch⟩
  cases h with
  | uncleared => cases hfile
  | unextracted => cases hfile
  | unwritten hextract hrun => exact key hextract hrun
  | unrecorded hextract hrun => exact key hextract hrun
  | returned hextract hrun => exact key hextract hrun

/-- **What a generation writes below its output** are resource files and registry files. -/
theorem Course.location_of_mem (hg : g.renderer.Regular) {r : Except RunError Outcome}
    (h : Course g loaded w written shared versions r) {file : String × String}
    (hfile : file ∈ written) (here : Location) :
    IsGenerated (g.output.location here) ((place g.output file.1).location here) := by
  obtain ⟨resources, files, hextract, hbatch, -, hmem⟩ := h.exists_batch hfile
  rcases mem_batches hbatch with ⟨r, hr, hfiles⟩ | ⟨-, hfiles⟩
  · exact .inl (isResourceFile_of_mem (Api.slash_not_mem_fileName hextract hr) hfiles hmem)
  · refine .inr (location_of_mem_registryNames ?_)
    rw [← hg _ _ _ hfiles]
    exact List.mem_map_of_mem hmem

/-- What a generation changes below the shared interface and the version document is written or
    cleared away. -/
theorem Leaves.of_files_ne (hleaves : Leaves g written shared versions w w')
    (hl : w'.files l ≠ w.files l) :
    (∃ file ∈ written, l = (place g.output file.1).location w.current) ∨
      IsResourceFile (g.output.location w.current) l ∨
      shared.isSome ∧ l = sharedLocation (g.output.location w.current) ∨
      versions.isSome ∧ l = g.versionFile.location w.current := by
  obtain ⟨cleared, hcleared, hfiles⟩ := hleaves.files
  by_cases hversions : versions.isSome ∧ l = g.versionFile.location w.current
  · exact .inr (.inr (.inr hversions))
  by_cases hshared : shared.isSome ∧ l = sharedLocation (g.output.location w.current)
  · exact .inr (.inr (.inl hshared))
  rw [hfiles, withText_of_ne (not_and.mp hversions), withText_of_ne (not_and.mp hshared)] at hl
  rcases overlay_cases w.current g.output written cleared l with heq | ⟨file, hfile, heq, -⟩
  · rw [heq] at hl
    exact .inr (.inl ((hcleared l).resolve_left hl).2.isResourceFile)
  · exact .inl ⟨file, hfile, heq⟩

/-! ### Runs -/

/-- A computation in a run that ends in removing a scratch copy ends as it would without it. -/
theorem ensuring_dropScratch {α : Type} {m : Run α} {number : Nat} {r : Except RunError α}
    (h : ensuring m (dropScratch number) w = (r, w')) : ∃ v, m w = (r, v) ∧ Still v w' := by
  rw [ensuring_dropScratch_eq] at h
  cases h
  exact ⟨(m w).2, rfl, still_dropScratch number _ _ _ rfl⟩

/-- What a generation leaves does not depend on the log. -/
theorem Leaves.of_still {v u : World} (hstart : Still w v)
    (h : Leaves g written shared versions v u) (hend : Still u w') :
    Leaves g written shared versions w w' where
  toContinues := hstart.paves.toContinues.trans (h.toContinues.trans hend.paves.toContinues)
  files := by
    obtain ⟨cleared, hcleared, hfiles⟩ := h.files
    simp only [World.files, hstart.tree, hstart.current] at hcleared hfiles
    exact ⟨cleared, hcleared, by rw [World.files, hend.tree, hfiles]⟩
  absent hsome := by
    have hnone := h.absent hsome
    rwa [hstart.tree, hstart.current] at hnone

/-- Nor does its course. -/
theorem Course.of_still {v : World} {r : Except RunError Outcome} (hstart : Still w v)
    (h : Course g loaded v written shared versions r) :
    Course g loaded w written shared versions r := by
  have hpath : interfaceAt v g.output = interfaceAt w g.output := by
    rw [interfaceAt, interfaceAt, hstart.top, hstart.current]
  cases h with
  | uncleared hrefusal => exact .uncleared hrefusal
  | unextracted hextract => exact .unextracted hextract
  | unwritten hextract hrun => exact .unwritten hextract hrun
  | unrecorded hextract hrun hshared => exact .unrecorded hextract hrun hshared
  | returned hextract hrun hshared hrecords =>
    rw [hpath]
    exact .returned hextract hrun hshared hrecords

/-- Loading a document does nothing to the tree. -/
theorem still_loaded {document : Except RunError Loaded}
    (h : load g.source g.timeout (begun w) = (document, v)) : Still w v := by
  have hbegun : Still w (begun w) := ⟨rfl, rfl, rfl, rfl, rfl⟩
  exact hbegun.trans (still_load _ _ _ _ _ h)

/-- A generation goes on from a document that was loaded. -/
theorem generate_of_load {r : Except RunError Outcome}
    (hload : load g.source g.timeout (begun w) = (.ok loaded, v)) (h : generate g w = (r, w')) :
    ∃ u, generateFrom g loaded v = (r, u) ∧ Still u w' := by
  replace h : (load g.source g.timeout >>= fun loaded =>
    ensuring (generateFrom g loaded) (dropScratch loaded.scratch)) (begun w) = (r, w') := h
  rw [bind_of_ok hload] at h
  exact ensuring_dropScratch h

/-- **How a generation ends.**  It fails to load its document and does nothing to the tree, or it
    goes its course from there. -/
theorem generate_cases (hw : w.Sound) {r : Except RunError Outcome} (h : generate g w = (r, w')) :
    (∃ e v, load g.source g.timeout (begun w) = (.error e, v) ∧ r = .error e ∧ Still w w') ∨
      ∃ loaded v written shared versions, load g.source g.timeout (begun w) = (.ok loaded, v) ∧
        Course g loaded w written shared versions r ∧
        Leaves g written shared versions w w' := by
  cases hload : load g.source g.timeout (begun w) with
  | mk document v =>
  have hstart := still_loaded hload
  cases document with
  | error e =>
    replace h : (load g.source g.timeout >>= fun loaded =>
      ensuring (generateFrom g loaded) (dropScratch loaded.scratch)) (begun w) = (r, w') := h
    rw [bind_of_error hload] at h
    cases h
    exact .inl ⟨e, w', rfl, rfl, hstart⟩
  | ok loaded =>
    obtain ⟨u, hfrom, hend⟩ := generate_of_load hload h
    obtain ⟨written, shared, versions, hcourse, hleaves⟩ :=
      generateFrom_course (hstart.paves.toContinues.soundWorld hw) hfrom
    exact .inr ⟨loaded, v, written, shared, versions, rfl, hcourse.of_still hstart,
      hleaves.of_still hstart hend⟩

/-- A generation changes no files but those of its node, the shared interface and the version
    document. -/
theorem files_of_generate (hg : g.renderer.Regular) (hw : w.Sound) {r : Except RunError Outcome}
    (h : generate g w = (r, w')) (hl : ¬IsGenerated (g.output.location w.current) l)
    (hshared : l ≠ sharedLocation (g.output.location w.current))
    (hversion : l ≠ g.versionFile.location w.current) : w'.files l = w.files l := by
  rcases generate_cases hw h with
    ⟨e, v, -, -, hstill⟩ | ⟨loaded, v, written, shared, versions, -, hcourse, hleaves⟩
  · exact congrFun hstill.paves.files l
  by_contra hne
  rcases hleaves.of_files_ne hne with ⟨file, hfile, rfl⟩ | hresource | ⟨-, rfl⟩ | ⟨-, rfl⟩
  · exact hl (hcourse.location_of_mem hg hfile w.current)
  · exact hl (.inl hresource)
  · exact hshared rfl
  · exact hversion rfl

/-- What a generation has done when it returns. -/
structure Finished (g : Generation) (resources : List Api.Resource) (outcome : Outcome)
    (written : List (String × String)) (w w' : World) : Prop where
  run : BatchRun (batches g resources) written none
  slash : ∀ r ∈ resources, '/' ∉ r.fileName.toList
  files : ∃ shared : Option Path,
    outcome.files = written.map (place g.output ·.1) ++ shared.toList ∧
      ∀ p ∈ shared, p.location w.current = sharedLocation (g.output.location w.current)
  current : w'.current = w.current
  /-- The files of the node are there as they were written last. -/
  holds : ∃ kept, ∀ l, IsGenerated (g.output.location w.current) l →
    l ≠ g.versionFile.location w.current → w'.files l = overlay w.current g.output written kept l

/-- Where the files stand that it lists. -/
theorem Finished.location_of_mem (hg : g.renderer.Regular)
    (h : Finished g resources outcome written w w') {p : Path} (hp : p ∈ outcome.files) :
    (∃ r ∈ resources, ∃ name ∈ resourceNames r, p = place g.output name) ∨
      p.location w.current ∈ registryLocations (g.output.location w.current) ∨
      p.location w.current = sharedLocation (g.output.location w.current) := by
  obtain ⟨shared, hfiles, hshared⟩ := h.files
  rw [hfiles, List.mem_append, Option.mem_toList] at hp
  rcases hp with hp | hp
  · obtain ⟨file, hfile, rfl⟩ := List.mem_map.mp hp
    obtain ⟨files, hbatch, -, hmem⟩ := h.run.exists_batch hfile
    rcases mem_batches hbatch with ⟨r, hr, hresource⟩ | ⟨-, hregistry⟩
    · exact .inl ⟨r, hr, file.1, fst_of_mem_resourceFiles hresource hmem, rfl⟩
    · refine .inr (.inl (location_of_mem_registryNames ?_))
      rw [← hg _ _ _ hregistry]
      exact List.mem_map_of_mem hmem
  · exact .inr (.inr (hshared p hp))

/-- A generation that returns has done this for the resources of its document. -/
theorem finished_of_generate (hw : w.Sound) (h : generate g w = (.ok outcome, w')) :
    ∃ document resources written, Loads g w document ∧
      Api.extract g.config document = .ok resources ∧
      Finished g resources outcome written w w' := by
  rcases generate_cases hw h with
    ⟨e, v, -, heq, -⟩ | ⟨loaded, v, written, shared, versions, hload, hcourse, hleaves⟩
  · cases heq
  cases hcourse with
  | returned hextract hrun hsome hrecords =>
    rename_i resources text
    obtain ⟨kept, -, hfiles⟩ := hleaves.files
    refine ⟨loaded.document, resources, written, ⟨loaded, v, hload, rfl⟩, hextract, hrun,
      fun r hr => Api.slash_not_mem_fileName hextract hr, ⟨_, rfl, fun p hp => ?_⟩,
      hleaves.current, kept, fun l hl hversion => ?_⟩
    · obtain ⟨_, -, rfl⟩ := Option.map_eq_some_iff.mp hp
      exact location_interfaceAt hw _ _
    · rw [hfiles, withText_of_ne fun _ => hversion, withText_of_ne fun _ heq => ?_]
      exact not_isGenerated_sharedLocation _ (heq ▸ hl)

end ApiNodes.Run
