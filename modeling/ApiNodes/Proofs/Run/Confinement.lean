import ApiNodes.Proofs.Run.Returns

namespace ApiNodes.Run

open Files (Location)

/-!
# Confinement of a generation

However a generation ends, it changes the files of its node, the interface that nodes share and
the version document, and no others.  No text of the document has a say in it.

* `generate_confined` — which files a generation can change.
-/

variable {g : Generation} {w w' : World}

/-- **A generation is confined to its node.**  Whether it returns or fails, a file that is not as
    before is a handler file or a properties file of the node, a registry file, the shared
    interface where there was nothing, or the version document. -/
theorem generate_confined (hg : g.renderer.Regular) (hw : w.Sound) (l : Location)
    (hl : (generate g w).2.files l ≠ w.files l) :
    InFolder (g.output.location w.current ++ ["resources", "handlers"]) "-handler.ts" l ∨
      InFolder (g.output.location w.current ++ ["properties"]) "-properties.ts" l ∨
      l ∈ registryLocations (g.output.location w.current) ∨
      l = sharedLocation (g.output.location w.current) ∧ w.tree.at? l = none ∨
      l = g.versionFile.location w.current := by
  obtain ⟨r, w', hrun⟩ : ∃ r w', generate g w = (r, w') := ⟨_, _, rfl⟩
  rw [hrun] at hl
  rcases generate_cases hw hrun with
    ⟨e, v, -, -, hstill⟩ | ⟨loaded, v, written, shared, versions, -, hcourse, hleaves⟩
  · exact absurd (congrFun hstill.paves.files l) hl
  rw [← or_assoc]
  rcases hleaves.of_files_ne hl with ⟨file, hfile, rfl⟩ | hresource | ⟨hsome, rfl⟩ | ⟨-, rfl⟩
  · exact (hcourse.location_of_mem hg hfile w.current).imp id .inl
  · exact .inl hresource
  · exact .inr (.inr (.inl ⟨rfl, hleaves.absent hsome⟩))
  · exact .inr (.inr (.inr rfl))

/-- A generation that returns leaves the registry files, unless the version document stands in the
    place of one. -/
theorem Finished.isSome_registry {outcome : Outcome} {resources : List Api.Resource}
    {written : List (String × String)} {name : String} (hg : g.renderer.Regular)
    (hregistry : g.config.updateRegistry = true) (h : Finished g resources outcome written w w')
    (hname : name ∈ registryNames)
    (hversion : (place g.output name).location w.current ≠ g.versionFile.location w.current) :
    (w'.files ((place g.output name).location w.current)).isSome := by
  obtain ⟨kept, hkept⟩ := h.holds
  rw [hkept _ (.inr (location_of_mem_registryNames hname)) hversion]
  obtain ⟨file, hfile, rfl⟩ := exists_registry_file hg hregistry h.run hname
  exact isSome_overlay_of_mem hfile

theorem generate_confined_hostileWorld :
    ∃ l ∈ registryLocations ["node"],
      (generate { output := .ofString "node" } hostileWorld).2.files l ≠ hostileWorld.files l ∧
      (InFolder ["node", "resources", "handlers"] "-handler.ts" l ∨
        InFolder ["node", "properties"] "-properties.ts" l ∨ l ∈ registryLocations ["node"] ∨
        l = ["shared", "resource-handler.ts"] ∧ hostileWorld.tree.at? l = none ∨
        l = ["api-version.json"]) := by
  obtain ⟨outcome, w', hrun⟩ := generate_hostileWorld
  obtain ⟨document, resources, written, -, -, hfinished⟩ :=
    finished_of_generate sound_hostileWorld hrun
  have hsome := hfinished.isSome_registry regular_standard rfl propertyRegistryPath_mem
    (by decide +kernel)
  let l := (place (.ofString "node") Artifact.propertyRegistryPath).location []
  have hl : (generate { output := .ofString "node" } hostileWorld).2.files l ≠
      hostileWorld.files l := by
    intro heq
    rw [hrun] at heq
    exact absurd ((congrArg Option.isSome heq).symm.trans hsome) (by decide +kernel)
  exact ⟨_, location_of_mem_registryNames propertyRegistryPath_mem, hl,
    generate_confined regular_standard sound_hostileWorld _ hl⟩

end ApiNodes.Run
