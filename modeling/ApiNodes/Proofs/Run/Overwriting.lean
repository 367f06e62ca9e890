import ApiNodes.Proofs.Artifact.Declarations
import ApiNodes.Proofs.Run.Returns

namespace ApiNodes.Run

open Api (PlainDocument Resource)
open Artifact (Contains classDeclaration constantDeclaration handlerText propertiesText
  registryFiles)
open Files (Location Path Tree)

/-!
# What a generation overwrites

The files of a resource are named after its file name, and different names of resources can
have one file name.  A generation that returns then has written the files of one resource
over those of another; otherwise nothing is overwritten, and what the registry imports is
declared where it is imported from.

* `Finished.nodup_files_iff` — when no path is written twice;
* `Finished.declared` — what the registry imports then;
* `overwrites_nothing_iff` — no file is lost exactly when the file names are different.
-/

variable {g : Generation} {outcome : Outcome} {w w' : World} {r : Resource}
  {resources : List Resource} {files written : List (String × String)} {output : Path}
  {name : String}

/-! ### All files of a node -/

/-- A generation of all files of a node, by the templates. -/
structure Generation.Full (g : Generation) : Prop where
  renderer : g.renderer = .standard
  handlers : g.config.generateHandlers = true
  properties : g.config.generateProperties = true
  registry : g.config.updateRegistry = true

/-- The files of a resource are a handler file and a properties file. -/
theorem resourceFiles_eq_ok_iff (hg : g.Full) :
    resourceFiles g r = .ok files ↔ ∃ handler properties, handlerText r = .ok handler ∧
      propertiesText r = .ok properties ∧
      files = [(handlerPath r, handler), (propertiesPath r, properties)] := by
  unfold resourceFiles
  rw [hg.handlers, hg.properties, hg.renderer]
  simp only [Renderer.standard, if_true]
  cases handlerText r <;> cases propertiesText r <;>
    simp [bind, Except.bind, pure, Except.pure, Functor.map, Except.map, eq_comm]

/-- The paths of the files of a node. -/
def nodeNames (resources : List Resource) : List String :=
  resources.flatMap resourceNames ++ registryNames

/-- The batches of a node with all files. -/
theorem batches_eq (hg : g.Full) :
    batches g resources =
      resources.map (resourceFiles g) ++ [registryFiles g.nodeLabel resources] := by
  unfold batches
  rw [if_pos hg.registry, hg.renderer]
  rfl

/-- **The files of a node are written** in the order of its resources, and then the registry. -/
theorem map_fst_written (hg : g.Full) (h : BatchRun (batches g resources) written none) :
    written.map (·.1) = nodeNames resources := by
  have hrendered {batch : Batch} (hbatch : batch ∈ batches g resources) :
      ∃ files, batch = .ok files := (h.rendered hbatch).imp fun _ h => h.1
  rw [h.map_fst]
  rw [batches_eq hg] at hrendered ⊢
  rw [List.flatMap_append, List.flatMap_map, List.flatMap_singleton, nodeNames]
  congr 1
  · refine List.flatMap_congr fun r hr => ?_
    obtain ⟨files, hfiles⟩ := hrendered (List.mem_append_left _ (List.mem_map_of_mem hr))
    obtain ⟨handler, properties, -, -, rfl⟩ := (resourceFiles_eq_ok_iff hg).mp hfiles
    rw [hfiles]
    rfl
  · obtain ⟨files, hfiles⟩ := hrendered (List.mem_append_right _ (List.mem_singleton.mpr rfl))
    rw [hfiles]
    exact map_fst_registryFiles hfiles

/-! ### Different places -/

/-- The paths of a node lead on. -/
theorem leads_of_mem_nodeNames (hslash : ∀ r ∈ resources, '/' ∉ r.fileName.toList)
    (hname : name ∈ nodeNames resources) : Leads name := by
  rcases List.mem_append.mp hname with hname | hname
  · obtain ⟨r, hr, hname⟩ := List.mem_flatMap.mp hname
    rcases List.mem_pair.mp hname with rfl | rfl
    · exact (handlerPath_spec (hslash r hr)).2
    · exact (propertiesPath_spec (hslash r hr)).2
  · exact leads_of_mem_registryNames hname

/-- Files of resources with different file names have different names. -/
theorem disjoint_resourceNames {s : Resource} (hr : '/' ∉ r.fileName.toList)
    (hs : '/' ∉ s.fileName.toList) (h : r.fileName ≠ s.fileName) :
    ((resourceNames r).map lastNames).Disjoint ((resourceNames s).map lastNames) := by
  simp [resourceNames, (handlerPath_spec hr).1, (handlerPath_spec hs).1, (propertiesPath_spec hr).1,
    (propertiesPath_spec hs).1, Ne.symm h]

/-- **The files of a node have different names** exactly when its resources have different file
    names. -/
theorem nodup_lastNames_iff (hslash : ∀ r ∈ resources, '/' ∉ r.fileName.toList) :
    ((nodeNames resources).map lastNames).Nodup ↔ (resources.map (·.fileName)).Nodup := by
  constructor
  · intro hnodup
    have hnames := (List.nodup_append.mp hnodup.of_map).1
    refine List.pairwise_map.mpr ((List.nodup_flatMap.mp hnames).2.imp ?_)
    intro r s hdisjoint heq
    have hpath : handlerPath r = handlerPath s := by
      unfold handlerPath
      rw [heq]
    exact hdisjoint List.mem_cons_self (hpath ▸ List.mem_cons_self)
  · intro hnodup
    obtain ⟨hregistry, hindex, hconfig⟩ := lastNames_registry
    rw [nodeNames, List.map_append, List.map_flatMap]
    refine List.nodup_append.mpr ⟨List.nodup_flatMap.mpr ⟨fun r hr => ?_, ?_⟩, ?_, ?_⟩
    · simp [resourceNames, (handlerPath_spec (hslash r hr)).1,
        (propertiesPath_spec (hslash r hr)).1]
    · exact (List.pairwise_map.mp hnodup).imp_of_mem fun hr hs hne =>
        disjoint_resourceNames (hslash _ hr) (hslash _ hs) hne
    · simp [registryNames, hregistry, hindex, hconfig]
    · intro a ha b hb
      obtain ⟨r, hr, ha⟩ := List.mem_flatMap.mp ha
      simp only [resourceNames, List.map_cons, List.map_nil, (handlerPath_spec (hslash r hr)).1,
        (propertiesPath_spec (hslash r hr)).1, List.mem_cons, List.not_mem_nil, or_false] at ha
      simp only [registryNames, List.map_cons, List.map_nil, hregistry, hindex, hconfig,
        List.mem_cons, List.not_mem_nil, or_false] at hb
      rcases ha with rfl | rfl <;> rcases hb with rfl | rfl | rfl <;> simp

/-- So do their paths. -/
theorem nodup_paths_iff (hslash : ∀ r ∈ resources, '/' ∉ r.fileName.toList) :
    ((nodeNames resources).map (place output)).Nodup ↔ (resources.map (·.fileName)).Nodup := by
  have hplaces : (nodeNames resources).map (place output) =
      ((nodeNames resources).map lastNames).map
        fun names => { output with names := output.names ++ names } := by
    rw [List.map_map]
    exact List.map_congr_left fun name hname =>
      Path.join_of_current (leads_of_mem_nodeNames hslash hname).anchor
  rw [hplaces, List.nodup_map_iff fun a b hab => List.append_cancel_left (congrArg Path.names hab),
    nodup_lastNames_iff hslash]

/-! ### Runs -/

/-- What stands at the paths of a node is generated. -/
theorem isGenerated_of_mem_nodeNames (hslash : ∀ r ∈ resources, '/' ∉ r.fileName.toList)
    (hname : name ∈ nodeNames resources) {here : Location} :
    IsGenerated (output.location here) ((place output name).location here) := by
  rcases List.mem_append.mp hname with hname | hname
  · obtain ⟨r, hr, hname⟩ := List.mem_flatMap.mp hname
    exact .inl (isResourceFile_of_mem_resourceNames (hslash r hr) hname)
  · exact .inr (location_of_mem_registryNames hname)

/-- **No path is written twice** exactly when the file names are different. -/
theorem Finished.nodup_files_iff (hg : g.Full) (h : Finished g resources outcome written w w') :
    outcome.files.Nodup ↔ (resources.map (·.fileName)).Nodup := by
  obtain ⟨shared, hfiles, hshared⟩ := h.files
  have hpaths : written.map (place g.output ·.1) = (nodeNames resources).map (place g.output) := by
    rw [← map_fst_written hg h.run, List.map_map]
    rfl
  rw [hfiles, hpaths, List.nodup_append, nodup_paths_iff h.slash]
  refine ⟨And.left, fun hnodup => ⟨hnodup, by cases shared <;> simp, fun p hp q hq heq => ?_⟩⟩
  obtain ⟨name, hname, rfl⟩ := List.mem_map.mp hp
  refine not_isGenerated_sharedLocation (g.output.location w.current) ?_
  rw [← hshared q (Option.mem_toList.mp hq), ← heq]
  exact isGenerated_of_mem_nodeNames h.slash hname

/-- A text is the content of the file at a path. -/
def Holds (w : World) (p : Path) (text : String) : Prop :=
  w.files (p.location w.current) = some text.toUTF8

/-- A file of a node holds the text that it was written with. -/
theorem Finished.holds_text (hg : g.Full) (h : Finished g resources outcome written w w')
    (hnodup : (resources.map (·.fileName)).Nodup)
    (hversion : ¬IsGenerated (g.output.location w.current) (g.versionFile.location w.current))
    {text : String} (hfile : (name, text) ∈ written) : Holds w' (place g.output name) text := by
  obtain ⟨kept, hkept⟩ := h.holds
  have hname : name ∈ nodeNames resources :=
    map_fst_written hg h.run ▸ List.mem_map_of_mem (f := Prod.fst) hfile
  have hgenerated : IsGenerated (g.output.location w.current)
      ((place g.output name).location w.current) := isGenerated_of_mem_nodeNames h.slash hname
  have hplaces : (written.map fun file => (place g.output file.1).location w.current).Nodup := by
    have hlocations : written.map (fun file => (place g.output file.1).location w.current) =
        ((nodeNames resources).map lastNames).map (g.output.location w.current ++ ·) := by
      rw [← map_fst_written hg h.run, List.map_map, List.map_map]
      refine List.map_congr_left fun file hfile => ?_
      exact (leads_of_mem_nodeNames h.slash
        (map_fst_written hg h.run ▸ List.mem_map_of_mem hfile)).location
    rw [hlocations, List.nodup_map_iff (List.append_right_injective _), nodup_lastNames_iff h.slash]
    exact hnodup
  rw [Holds, h.current, hkept _ hgenerated fun heq => hversion (heq ▸ hgenerated),
    overlay_of_nodup hplaces hfile]

/-! ### Imports -/

/-- The file that a file imports from. -/
def importedFile (p : Path) (source : String) : Path := p.parent.join (.ofString (source ++ ".ts"))

/-- The file at a path imports a name from a file with its declaration. -/
def ImportsDeclared (w : World) (p : Path) (name source declaration : String) : Prop :=
  ∃ text text', Holds w p text ∧ Contains text (Template.codeImport "import" name source) ∧
    Holds w (importedFile p source) text' ∧ Contains text' declaration

/-- What the registry imports for a resource is declared where it is imported from. -/
structure Declared (w : World) (output : Path) (r : Resource) : Prop where
  handler : ImportsDeclared w (place output Artifact.resourceIndexPath) r.handlerClass
    ("./handlers/" ++ r.fileName ++ "-handler") (classDeclaration r)
  properties : ImportsDeclared w (place output Artifact.propertyRegistryPath)
    r.propertiesConstant ("./properties/" ++ r.fileName ++ "-properties") (constantDeclaration r)

/-- An import leads to a file of a folder beside the file that it stands in. -/
theorem importedFile_place {name path folder file last ending target : String}
    (hname : Leads name) (hne : lastNames name ≠ []) (hpath : path = folder ++ "/")
    (hfolder : Leads folder) (hempty : folder ≠ "") (hending : last ++ ".ts" = ending)
    (hslash : '/' ∉ (file ++ ending).toList) (hlong : 2 < ending.length) (htarget : Leads target)
    (h : lastNames target = (lastNames name).dropLast ++ (lastNames folder ++ [file ++ ending])) :
    importedFile (place output name) (path ++ file ++ last) = place output target := by
  have hsource : path ++ file ++ last ++ ".ts" = path ++ file ++ ending := by
    rw [String.append_assoc, hending]
  rw [← lastNames_in hpath hslash hlong] at h
  unfold importedFile
  rw [hsource]
  exact Path.join_parent_join hname.anchor (leads_in hpath hfolder hempty hslash hlong).anchor
    htarget.anchor hne h

/-- The index of handlers imports from the handler file of a resource. -/
theorem importedFile_handler (h : '/' ∉ r.fileName.toList) (output : Path) :
    importedFile (place output Artifact.resourceIndexPath)
      ("./handlers/" ++ r.fileName ++ "-handler") = place output (handlerPath r) := by
  have hfolder : lastNames "./handlers" = ["handlers"] := by decide +kernel
  have hleads : Leads "./handlers" := ⟨by decide +kernel, by rw [hfolder]; decide⟩
  refine importedFile_place (leads_of_mem_registryNames (by simp [registryNames])) ?_ (by simp)
    hleads (by simp) (by simp [handlerEnding] : "-handler" ++ ".ts" = handlerEnding)
    (by simp [handlerEnding, h]) (by decide) (handlerPath_spec h).2 ?_
  · rw [lastNames_registry.2.1]
    exact List.cons_ne_nil _ _
  · rw [(handlerPath_spec h).1, lastNames_registry.2.1, hfolder]
    rfl

/-- The registry of properties imports from the properties file of a resource. -/
theorem importedFile_properties (h : '/' ∉ r.fileName.toList) (output : Path) :
    importedFile (place output Artifact.propertyRegistryPath)
      ("./properties/" ++ r.fileName ++ "-properties") = place output (propertiesPath r) := by
  have hfolder : lastNames "./properties" = ["properties"] := by decide +kernel
  have hleads : Leads "./properties" := ⟨by decide +kernel, by rw [hfolder]; decide⟩
  refine importedFile_place (leads_of_mem_registryNames (by simp [registryNames])) ?_ (by simp)
    hleads (by simp) (by simp [propertiesEnding] : "-properties" ++ ".ts" = propertiesEnding)
    (by simp [propertiesEnding, h]) (by decide) (propertiesPath_spec h).2 ?_
  · rw [lastNames_registry.1]
    exact List.cons_ne_nil _ _
  · rw [(propertiesPath_spec h).1, lastNames_registry.1, hfolder]
    rfl

/-- **What is imported is declared** if the file names are different. -/
theorem Finished.declared (hg : g.Full) (h : Finished g resources outcome written w w')
    (hnodup : (resources.map (·.fileName)).Nodup)
    (hversion : ¬IsGenerated (g.output.location w.current) (g.versionFile.location w.current))
    (hr : r ∈ resources) : Declared w' g.output r := by
  have hboth : resourceFiles g r ∈ batches g resources := by
    rw [batches_eq hg]
    exact List.mem_append_left _ (List.mem_map_of_mem hr)
  have hregistry : registryFiles g.nodeLabel resources ∈ batches g resources := by
    simp [batches_eq hg]
  obtain ⟨both, hboth, hwritten⟩ := h.run.rendered hboth
  obtain ⟨others, hothers, hwritten'⟩ := h.run.rendered hregistry
  obtain ⟨handler, properties, hhandler, hproperties, rfl⟩ := (resourceFiles_eq_ok_iff hg).mp hboth
  obtain ⟨registry, index, labels, hregistry, hindex, -, rfl⟩ := registryFiles_eq_ok_iff.mp hothers
  have hslash := h.slash r hr
  have hholds {name text : String} (hfile : (name, text) ∈ written) :
      Holds w' (place g.output name) text := h.holds_text hg hnodup hversion hfile
  constructor
  · refine ⟨index, handler, hholds (hwritten' (by simp)), Artifact.contains_handlerImport hindex hr, ?_,
      Artifact.contains_classDeclaration hhandler⟩
    rw [importedFile_handler hslash]
    exact hholds (hwritten (List.mem_pair.mpr (.inl rfl)))
  · refine ⟨registry, properties, hholds (hwritten' (by simp)),
      Artifact.contains_propertiesImport hregistry hr, ?_,
      Artifact.contains_constantDeclaration hproperties⟩
    rw [importedFile_properties hslash]
    exact hholds (hwritten (List.mem_pair.mpr (.inr rfl)))

/-- **Nothing is overwritten exactly when the file names of resources are different.**  In a run
    that returns, no path is written twice and what the registry imports is declared where it is
    imported from if and only if no two of the resources have one file name. -/
theorem overwrites_nothing_iff (hg : g.Full) (hw : w.Sound)
    (hversion : ¬IsGenerated (g.output.location w.current) (g.versionFile.location w.current))
    (hrun : generate g w = (.ok outcome, w')) :
    ∃ document resources, Loads g w document ∧ Api.extract g.config document = .ok resources ∧
      ((outcome.files.Nodup ∧ ∀ r ∈ resources, Declared w' g.output r) ↔
        (resources.map (·.fileName)).Nodup) := by
  obtain ⟨document, resources, written, hloads, hextract, hfinished⟩ := finished_of_generate hw hrun
  refine ⟨document, resources, hloads, hextract, ?_⟩
  rw [hfinished.nodup_files_iff hg]
  exact ⟨And.left, fun hnodup =>
    ⟨hnodup, fun r hr => hfinished.declared hg hnodup hversion hr⟩⟩

/-- In the node of the document that tries to leave its texts nothing is overwritten. -/
theorem overwrites_nothing_hostileWorld :
    ∃ outcome w', generate { output := .ofString "node" } hostileWorld = (.ok outcome, w') ∧
      outcome.files.Nodup ∧ ∃ r, r.fileName = "u" ∧ Declared w' (.ofString "node") r := by
  obtain ⟨outcome, w', hrun⟩ := generate_hostileWorld
  obtain ⟨document, resources, hloads, hextract, hiff⟩ := overwrites_nothing_iff
    ⟨rfl, rfl, rfl, rfl⟩ sound_hostileWorld (by decide +kernel) hrun
  obtain rfl := (loads_hostileWorld_iff rfl rfl).mp hloads
  have hnames : (Api.extract {} hostileDocument).toOption.map (·.map (·.fileName)) =
      some ["u"] := by decide +kernel
  rw [hextract] at hnames
  replace hnames : resources.map (·.fileName) = ["u"] := Option.some.inj hnames
  obtain ⟨hnodup, hdeclared⟩ := hiff.mpr (by rw [hnames]; decide)
  obtain ⟨r, hr, hname⟩ := List.mem_map.mp (hnames ▸ List.mem_cons_self : "u" ∈ resources.map _)
  exact ⟨outcome, w', hrun, hnodup, r, hname, hdeclared r hr⟩

/-- A document with two resources that have one file name. -/
def collidingDocument : Value :=
  .object [("paths", .object [("/api/v1/a1-b", .object [("get", .object [])]),
    ("/api/v1/a1b", .object [("get", .object [])])])]

/-- A world in which the network has the document. -/
def collidingWorld : World where
  replies := [(defaultAddress, .answered 200 none
    ("\x7b\x22paths\x22:\x7b\x22/api/v1/a1-b\x22:\x7b\x22get\x22:\x7b\x7d\x7d," ++
      "\x22/api/v1/a1b\x22:\x7b\x22get\x22:\x7b\x7d\x7d\x7d\x7d"))]

theorem plainDocument_collidingDocument : PlainDocument collidingDocument where
  paths := by
    intro c hc path hpath _
    have hall : (Api.candidates collidingDocument).map (·.path) =
      [.str "/api/v1/a1-b", .str "/api/v1/a1b"] := rfl
    have hmem := List.mem_map_of_mem (f := (·.path)) hc
    rw [hall, List.mem_pair, hpath] at hmem
    rcases hmem with heq | heq <;> cases heq
    · exact ⟨"a1-b".toList, [], ⟨by simp, by simp [Name.All]; decide⟩, by simp, by decide⟩
    · exact ⟨"a1b".toList, [], ⟨by simp, by simp [Name.All]; decide⟩, by simp, by decide⟩
  queries := by
    intro c hc declared hdeclared
    have hall : (Api.candidates collidingDocument).all
        (Api.declaredParameters ·.operation |>.isEmpty) = true := rfl
    rw [List.isEmpty_iff.mp (List.all_eq_true.mp hall c hc)] at hdeclared
    cases hdeclared

theorem loads_collidingWorld :
    Loads { output := .ofString "node" } collidingWorld collidingDocument :=
  loads_of_network rfl rfl <|
    map_document_load rfl (by decide +kernel) (by cbv) (by decide +kernel)

/-- The file names of resources, if their names are found in their order. -/
theorem map_fileName_extract {config : Api.Config} {document : Value} (names : List String)
    (h : (Api.entries config document).toOption.map
      (fun es => (Api.distinct (es.map (·.resource))).filter (!Api.isReserved ·)) = some names)
    (hsorted : names.Pairwise (· ≤ ·)) :
    (Api.extract config document).toOption.map (·.map (·.fileName)) =
      some (names.map Name.hyphenated) :=
  Api.map_extract (fun _ _ => rfl) names h hsorted

/-- In the node of this document a path is written twice. -/
theorem overwrites_collidingWorld :
    ∃ outcome w', generate { output := .ofString "node" } collidingWorld = (.ok outcome, w') ∧
      ¬outcome.files.Nodup := by
  have hnames : (Api.extract {} collidingDocument).toOption.map (·.map (·.fileName)) =
      some ["a1b", "a1b"] :=
    (map_fileName_extract ["a1B", "a1b"] (by decide +kernel) (by decide +kernel)).trans
      (by decide +kernel)
  have hsound : collidingWorld.Sound :=
    ⟨Tree.sound_of_entries fun _ h => absurd h List.not_mem_nil, rfl⟩
  have hs : (nodeSite { output := .ofString "node" } ["a1b", "a1b"] []).Layout := by decide +kernel
  obtain ⟨outcome, w', hrun, -⟩ := generate_plain_returns { output := .ofString "node" }
    ["a1b", "a1b"] [] rfl remark_defaultLabel plainDocument_collidingDocument loads_collidingWorld
    hnames (by decide +kernel) (by decide +kernel) hs
    (unrecorded_of_free hs hsound.tree rfl rfl rfl rfl (by decide +kernel) (by decide +kernel))
  obtain ⟨document, resources, written, hloads, hextract, hfinished⟩ :=
    finished_of_generate hsound hrun
  obtain rfl := hloads.unique loads_collidingWorld
  refine ⟨outcome, w', hrun, fun hnodup => ?_⟩
  rw [hfinished.nodup_files_iff ⟨rfl, rfl, rfl, rfl⟩] at hnodup
  rw [hextract] at hnames
  replace hnames : resources.map (·.fileName) = ["a1b", "a1b"] := Option.some.inj hnames
  rw [hnames] at hnodup
  exact absurd hnodup (by decide)

end ApiNodes.Run
