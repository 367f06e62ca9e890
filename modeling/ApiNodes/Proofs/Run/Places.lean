import ApiNodes.Proofs.Extraction.Plain
import ApiNodes.Proofs.Files.Location
import ApiNodes.Run.Generation

namespace ApiNodes.Run

open Api (Resource)
open Artifact (propertyRegistryPath propertyRegistryText registryFiles resourceConfigPath
  resourceConfigText resourceIndexPath resourceIndexText)
open Files (Location Path)

/-!
# Places of the files of a node

The files of a resource stand in two folders of the node, under the file name of the resource and
an ending, and the registry files have names of their own.  File names hold no slashes, so that
no text of a document leads a file anywhere else.

* `location_handlerPath`, `location_propertiesPath` — the files of a resource;
* `location_of_mem_registryNames` — the registry files;
* `location_sharedName` — the interface that nodes share.
-/

variable {g : Generation} {r s : Resource} {resources : List Resource} {name label : String}
  {files : List (String × String)} {folder output : Path} {here out l : Location}

/-! ### Places -/

/-- The place of a file below a folder. -/
def place (folder : Path) (name : String) : Path := folder.join (.ofString name)

/-- The last names of the place of a file. -/
def lastNames (name : String) : List String := (Path.ofString name).names

/-- A path that leads on from a folder, and not back. -/
structure Leads (name : String) : Prop where
  anchor : (Path.ofString name).anchor = .current
  onward : ".." ∉ lastNames name

/-- A file stands below its folder, by the names of its path. -/
theorem Leads.location (h : Leads name) :
    (place folder name).location here = folder.location here ++ lastNames name := by
  rw [place, Path.location_join h.anchor]
  exact Files.plainLocation_of_onward h.onward

/-! ### Names -/

section Folder

variable {path folder file ending : String}

/-- A file of a folder is a name of its own. -/
theorem lastNames_file (hslash : '/' ∉ (file ++ ending).toList) (hlong : 2 < ending.length) :
    lastNames (file ++ ending) = [file ++ ending] ∧ file ++ ending ≠ ".." := by
  have hlength : 2 < (file ++ ending).length := by
    rw [String.length_append]
    omega
  have hne {s : String} (hs : s.length ≤ 2) : file ++ ending ≠ s := by
    rintro rfl
    omega
  exact ⟨Path.names_ofString_name hslash (hne (by decide)) (hne (by decide)), hne (by decide)⟩

/-- A file of a folder has the names of the folder and its own. -/
theorem lastNames_in (hpath : path = folder ++ "/") (hslash : '/' ∉ (file ++ ending).toList)
    (hlong : 2 < ending.length) :
    lastNames (path ++ file ++ ending) = lastNames folder ++ [file ++ ending] := by
  have hparts : path ++ file ++ ending = folder ++ "/" ++ (file ++ ending) := by
    rw [hpath, String.append_assoc]
  rw [← (lastNames_file hslash hlong).1, hparts]
  exact Path.names_ofString_append _ _

/-- A file of a folder leads on if the folder does. -/
theorem leads_in (hpath : path = folder ++ "/") (hfolder : Leads folder) (hne : folder ≠ "")
    (hslash : '/' ∉ (file ++ ending).toList) (hlong : 2 < ending.length) :
    Leads (path ++ file ++ ending) where
  anchor := by
    rw [hpath, String.append_assoc, String.append_assoc]
    exact Path.anchor_ofString_append hfolder.anchor hne _
  onward := by
    rw [lastNames_in hpath hslash hlong, List.mem_append, List.mem_singleton]
    exact fun h => h.elim hfolder.onward (lastNames_file hslash hlong).2.symm

end Folder

/-- The folders of a node that old files are cleared from. -/
theorem lastNames_folders :
    lastNames "resources/handlers" = ["resources", "handlers"] ∧
      lastNames "properties" = ["properties"] := by
  decide +kernel

theorem leads_handlers : Leads "resources/handlers" :=
  ⟨by decide +kernel, by rw [lastNames_folders.1]; decide⟩

theorem leads_properties : Leads "properties" :=
  ⟨by decide +kernel, by rw [lastNames_folders.2]; decide⟩

/-- The handler file of a resource stands in the folder of handlers. -/
theorem handlerPath_spec (h : '/' ∉ r.fileName.toList) :
    lastNames (handlerPath r) = ["resources", "handlers", r.fileName ++ handlerEnding] ∧
      Leads (handlerPath r) := by
  have hpath : "resources/handlers/" = "resources/handlers" ++ "/" := by simp
  have hslash : '/' ∉ (r.fileName ++ handlerEnding).toList := by simp [handlerEnding, h]
  have hlong : 2 < handlerEnding.length := by decide
  have hnames := lastNames_in hpath hslash hlong
  rw [lastNames_folders.1] at hnames
  exact ⟨hnames, leads_in hpath leads_handlers (by simp) hslash hlong⟩

/-- The properties file of a resource stands in the folder of properties. -/
theorem propertiesPath_spec (h : '/' ∉ r.fileName.toList) :
    lastNames (propertiesPath r) = ["properties", r.fileName ++ propertiesEnding] ∧
      Leads (propertiesPath r) := by
  have hpath : "properties/" = "properties" ++ "/" := by simp
  have hslash : '/' ∉ (r.fileName ++ propertiesEnding).toList := by simp [propertiesEnding, h]
  have hlong : 2 < propertiesEnding.length := by decide
  have hnames := lastNames_in hpath hslash hlong
  rw [lastNames_folders.2] at hnames
  exact ⟨hnames, leads_in hpath leads_properties (by simp) hslash hlong⟩

/-- The paths of the registry files. -/
def registryNames : List String := [propertyRegistryPath, resourceIndexPath, resourceConfigPath]

/-- One of them is the registry of properties. -/
theorem propertyRegistryPath_mem : propertyRegistryPath ∈ registryNames := List.mem_cons_self

/-- The registry files have names of their own. -/
theorem lastNames_registry :
    lastNames propertyRegistryPath = ["property-registry.ts"] ∧
    lastNames resourceIndexPath = ["resources", "index.ts"] ∧
    lastNames resourceConfigPath = ["resource-config.ts"] := by
  decide +kernel

/-- The paths of the registry files lead on. -/
theorem leads_of_mem_registryNames (hname : name ∈ registryNames) : Leads name := by
  obtain ⟨hregistry, hindex, hconfig⟩ := lastNames_registry
  simp only [registryNames, List.mem_cons, List.not_mem_nil, or_false] at hname
  rcases hname with rfl | rfl | rfl
  · exact ⟨by decide +kernel, by rw [hregistry]; decide⟩
  · exact ⟨by decide +kernel, by rw [hindex]; decide⟩
  · exact ⟨by decide +kernel, by rw [hconfig]; decide⟩

/-! ### Locations -/

/-- The location of a file in a folder, under a name with an ending. -/
def InFolder (folder : Location) (ending : String) (l : Location) : Prop :=
  ∃ name, l = folder ++ [name] ∧ ending.toList <:+ name.toList

/-- A location in a folder is told by its last name. -/
theorem exists_concat_iff {P : String → Prop} :
    (∃ name, l = out ++ [name] ∧ P name) ↔ l.dropLast = out ∧ ∃ name ∈ l.getLast?, P name := by
  constructor
  · rintro ⟨name, rfl, hname⟩
    exact ⟨List.dropLast_concat, name, by simp, hname⟩
  · rintro ⟨rfl, name, hlast, hname⟩
    exact ⟨name, (List.dropLast_append_getLast? name hlast).symm, hname⟩

instance (folder : Location) (ending : String) (l : Location) :
    Decidable (InFolder folder ending l) :=
  decidable_of_iff _ exists_concat_iff.symm

/-- Where the files of resources stand in a node, and which old files are cleared away. -/
def IsResourceFile (out l : Location) : Prop :=
  InFolder (out ++ ["resources", "handlers"]) handlerEnding l ∨
    InFolder (out ++ ["properties"]) propertiesEnding l

instance (out l : Location) : Decidable (IsResourceFile out l) :=
  inferInstanceAs (Decidable (_ ∨ _))

/-- Where the registry files of a node stand. -/
def registryLocations (out : Location) : List Location :=
  [out ++ ["property-registry.ts"], out ++ ["resources", "index.ts"], out ++ ["resource-config.ts"]]

/-- Where the interface stands that nodes share. -/
def sharedLocation (out : Location) : Location := out.dropLast ++ ["shared", "resource-handler.ts"]

/-- Where the handler file of a resource stands. -/
theorem location_handlerPath (h : '/' ∉ r.fileName.toList) :
    (place output (handlerPath r)).location here =
      output.location here ++ ["resources", "handlers", r.fileName ++ handlerEnding] := by
  rw [(handlerPath_spec h).2.location, (handlerPath_spec h).1]

/-- Where its properties file stands. -/
theorem location_propertiesPath (h : '/' ∉ r.fileName.toList) :
    (place output (propertiesPath r)).location here =
      output.location here ++ ["properties", r.fileName ++ propertiesEnding] := by
  rw [(propertiesPath_spec h).2.location, (propertiesPath_spec h).1]

/-- The paths of the files of a resource. -/
def resourceNames (r : Resource) : List String := [handlerPath r, propertiesPath r]

/-- They stand where files of resources do. -/
theorem isResourceFile_of_mem_resourceNames (h : '/' ∉ r.fileName.toList)
    (hname : name ∈ resourceNames r) :
    IsResourceFile (output.location here) ((place output name).location here) := by
  have hending (ending : String) : ending.toList <:+ (r.fileName ++ ending).toList := by
    rw [String.toList_append]
    exact List.suffix_append _ _
  rcases List.mem_pair.mp hname with rfl | rfl
  · refine .inl ⟨r.fileName ++ handlerEnding, ?_, hending _⟩
    rw [location_handlerPath h, List.append_assoc]
    rfl
  · refine .inr ⟨r.fileName ++ propertiesEnding, ?_, hending _⟩
    rw [location_propertiesPath h, List.append_assoc]
    rfl

/-- Where the registry files stand. -/
theorem location_of_mem_registryNames (hname : name ∈ registryNames) :
    (place output name).location here ∈ registryLocations (output.location here) := by
  rw [(leads_of_mem_registryNames hname).location]
  obtain ⟨hregistry, hindex, hconfig⟩ := lastNames_registry
  simp only [registryNames, List.mem_cons, List.not_mem_nil, or_false] at hname
  rcases hname with rfl | rfl | rfl
  · simp [registryLocations, hregistry]
  · simp [registryLocations, hindex]
  · simp [registryLocations, hconfig]

/-- Each of their locations is that of a registry file. -/
theorem exists_of_mem_registryLocations (hl : l ∈ registryLocations (output.location here)) :
    ∃ name ∈ registryNames, l = (place output name).location here := by
  have hmem (name : String) (hname : name ∈ registryNames) :
      (place output name).location here = output.location here ++ lastNames name :=
    (leads_of_mem_registryNames hname).location
  obtain ⟨hregistry, hindex, hconfig⟩ := lastNames_registry
  simp only [registryLocations, List.mem_cons, List.not_mem_nil, or_false] at hl
  rcases hl with rfl | rfl | rfl
  · exact ⟨propertyRegistryPath, by simp [registryNames],
      by rw [hmem _ (by simp [registryNames]), hregistry]⟩
  · exact ⟨resourceIndexPath, by simp [registryNames],
      by rw [hmem _ (by simp [registryNames]), hindex]⟩
  · exact ⟨resourceConfigPath, by simp [registryNames],
      by rw [hmem _ (by simp [registryNames]), hconfig]⟩

/-- Where the shared interface stands. -/
theorem location_sharedName (output : Path) (here : Location) :
    (output.join (.ofString sharedName)).location here = sharedLocation (output.location here) := by
  have hnames : (Path.ofString sharedName).anchor = .current ∧
      (Path.ofString sharedName).names = [".."] ++ ["shared", "resource-handler.ts"] := by
    decide +kernel
  rw [Path.location_join hnames.1, hnames.2, Files.plainLocation_append,
    Files.plainLocation_of_onward (by decide)]
  rfl

/-- A resource file stands below the output. -/
theorem IsResourceFile.below (h : IsResourceFile out l) : out <+: l := by
  rcases h with ⟨name, rfl, -⟩ | ⟨name, rfl, -⟩
  · rw [List.append_assoc]
    exact List.prefix_append _ _
  · rw [List.append_assoc]
    exact List.prefix_append _ _

/-- So does a registry file. -/
theorem below_of_mem_registryLocations (h : l ∈ registryLocations out) : out <+: l := by
  simp only [registryLocations, List.mem_cons, List.not_mem_nil, or_false] at h
  rcases h with rfl | rfl | rfl <;> exact List.prefix_append _ _

/-- Where the files stand that a generation renders for a node. -/
def IsGenerated (out l : Location) : Prop := IsResourceFile out l ∨ l ∈ registryLocations out

instance (out l : Location) : Decidable (IsGenerated out l) := inferInstanceAs (Decidable (_ ∨ _))

/-- They are below the output. -/
theorem IsGenerated.below (h : IsGenerated out l) : out <+: l :=
  h.elim IsResourceFile.below below_of_mem_registryLocations

/-- Below the output the shared interface would stand in a folder that a node does not have, or in
    the output itself. -/
theorem names_of_sharedLocation {names : List String} (h : sharedLocation out = out ++ names) :
    names = ["shared", "resource-handler.ts"] ∨ names = ["resource-handler.ts"] := by
  unfold sharedLocation at h
  rcases eq_or_ne out [] with rfl | hne
  · exact .inl h.symm
  · right
    have hlength := congrArg List.length h
    have hpos := List.length_pos_iff.mpr hne
    simp only [List.length_append, List.length_dropLast, List.length_cons, List.length_nil]
      at hlength
    obtain ⟨name, rfl⟩ := List.length_eq_one_iff.mp (by omega : names.length = 1)
    have hlast := congrArg List.getLast? h
    simpa using hlast.symm

/-- It is none of these files. -/
theorem not_isGenerated_sharedLocation (out : Location) :
    ¬IsGenerated out (sharedLocation out) := by
  rintro ((⟨name, h, -⟩ | ⟨name, h, -⟩) | h)
  · rw [List.append_assoc] at h
    rcases names_of_sharedLocation h with hnames | hnames <;> simp at hnames
  · rw [List.append_assoc] at h
    rcases names_of_sharedLocation h with hnames | hnames <;> simp at hnames
  · simp only [registryLocations, List.mem_cons, List.not_mem_nil, or_false] at h
    rcases h with h | h | h <;> rcases names_of_sharedLocation h with hnames | hnames <;>
      simp at hnames

/-! ### Files that are rendered -/

/-- A renderer whose registry files are those of a node. -/
def Renderer.Regular (renderer : Renderer) : Prop :=
  ∀ label resources files, renderer.registry label resources = .ok files →
    files.map (·.1) = registryNames

/-- The registry files are the registry of properties, the index of handlers and the labels. -/
theorem registryFiles_eq_ok_iff :
    registryFiles label resources = .ok files ↔ ∃ registry index labels,
      propertyRegistryText resources = .ok registry ∧ resourceIndexText resources = .ok index ∧
      resourceConfigText label resources = .ok labels ∧
      files = [(propertyRegistryPath, registry), (resourceIndexPath, index),
        (resourceConfigPath, labels)] := by
  unfold registryFiles
  cases propertyRegistryText resources <;> cases resourceIndexText resources <;>
    cases resourceConfigText label resources <;>
    simp [bind, Except.bind, pure, Except.pure, eq_comm]

/-- They are rendered under their paths. -/
theorem map_fst_registryFiles (h : registryFiles label resources = .ok files) :
    files.map (·.1) = registryNames := by
  obtain ⟨registry, index, labels, -, -, -, rfl⟩ := registryFiles_eq_ok_iff.mp h
  rfl

/-- The templates are such a renderer. -/
theorem regular_standard : Renderer.standard.Regular := fun _ _ _ => map_fst_registryFiles

/-- The files of a resource are rendered under its paths. -/
theorem map_fst_resourceFiles (h : resourceFiles g r = .ok files) :
    (files.map (·.1)).Sublist (resourceNames r) := by
  unfold resourceFiles at h
  cases hhandler : g.config.generateHandlers <;> cases hproperties : g.config.generateProperties <;>
    cases hh : g.renderer.handler r <;> cases hp : g.renderer.properties r <;>
    simp [hhandler, hproperties, hh, hp, bind, Except.bind, pure, Except.pure, Functor.map,
      Except.map] at h <;> subst h <;> simp [resourceNames]

/-- Each of them has one of the two. -/
theorem fst_of_mem_resourceFiles (h : resourceFiles g r = .ok files) {file : String × String}
    (hfile : file ∈ files) : file.1 ∈ resourceNames r :=
  (map_fst_resourceFiles h).subset (List.mem_map_of_mem hfile)

/-- So they are resource files. -/
theorem isResourceFile_of_mem (hslash : '/' ∉ r.fileName.toList)
    (h : resourceFiles g r = .ok files) {file : String × String} (hfile : file ∈ files) :
    IsResourceFile (output.location here) ((place output file.1).location here) :=
  isResourceFile_of_mem_resourceNames hslash (fst_of_mem_resourceFiles h hfile)

end ApiNodes.Run
