import ApiNodes.Proofs.Artifact.Tables
import ApiNodes.Proofs.Extraction.Identifiers

namespace ApiNodes.Artifact

open Api (AsciiPaths Resource)
open Template

/-!
# Names in the registry files

The tables of the registry import the class and the constant of every resource, and have an entry
under its name.  The third file, with the labels, has nothing that is named after a resource.

* `read_resourceIndexLayout`, `read_propertyRegistryLayout` — what is read of the two tables, where
  all paths are ASCII;
* `registry_names` — no name is in a table twice, but for the class of a resource without a name,
  which is the interface of all classes.
-/

variable {config : Api.Config} {document : Value} {resources : List Resource} {r : Resource}
  {s t : String}

/-! ### Extracted resources -/

/-- A text without separators is a word. -/
theorem isWord_of_solid (h : Name.All (Name.isSeparator · = false) s.toList) : IsWord s where
  blank hc := absurd (h ' ' hc) (by decide)
  line hc := absurd (h '\n' hc) (by decide)

/-- A word goes on with one. -/
theorem IsWord.append (hs : IsWord s) (ht : IsWord t) : IsWord (s ++ t) where
  blank := by simp [hs.blank, ht.blank]
  line := by simp [hs.line, ht.line]

/-- The names of a resource are words where all paths are ASCII. -/
theorem isWord_names_of_mem (hd : AsciiPaths document)
    (h : Api.extract config document = .ok resources) (hr : r ∈ resources) :
    IsWord r.name ∧ IsWord r.handlerClass ∧ IsWord r.propertiesConstant := by
  have hname := Api.isCamel_name_of_mem hd h hr
  obtain ⟨hclass, hconstant⟩ := Api.names_of_mem h hr
  have hword := isWord_of_solid hname.solid
  refine ⟨hword, ?_, ?_⟩
  · rw [hclass, Name.handlerClass]
    refine (isWord_of_solid ?_).append ⟨by decide, by decide⟩
    rw [Name.pascal, String.toList_ofList, Name.pascalChars_of_isCamel hname]
    exact Name.solid_capitalizeChars hname.ascii hname.solid
  · rw [hconstant, Name.propertiesConstant]
    exact hword.append ⟨by decide, by decide⟩

/-- A file name is in one line, if the name of its resource is. -/
theorem line_not_mem_fileName (hname : IsWord r.name)
    (h : Api.extract config document = .ok resources) (hr : r ∈ resources) :
    '\n' ∉ r.fileName.toList := by
  obtain ⟨xs, -, -, -, heq⟩ := Api.exists_entries h hr
  have hall : Name.All (· ≠ '\n') (Name.hyphenatedChars r.name.toList) :=
    (Name.closed_ne (by decide) (by decide)).hyphenatedChars (by decide)
      fun c hc => ne_of_mem_of_not_mem hc hname.line
  intro hmem
  rw [heq] at hmem
  simp only [Api.resourceOf, Name.hyphenated, String.toList_ofList] at hmem
  exact hall '\n' hmem rfl

/-- The row of a resource fits into the index of handlers. -/
theorem fits_handlerRow (hd : AsciiPaths document) (h : Api.extract config document = .ok resources)
    (hr : r ∈ resources) : (handlerRow r).Fits := by
  obtain ⟨hname, hclass, -⟩ := isWord_names_of_mem hd h hr
  refine ⟨hname, ?_, hclass, ?_⟩
  · simp [handlerRow, inBrackets, Bracket.opener, Bracket.closer, hclass.line]
  · simp [handlerRow, line_not_mem_fileName hname h hr]

/-- The row of a resource fits into the registry of properties. -/
theorem fits_propertiesRow (hd : AsciiPaths document)
    (h : Api.extract config document = .ok resources) (hr : r ∈ resources) :
    (propertiesRow r).Fits := by
  obtain ⟨hname, -, hconstant⟩ := isWord_names_of_mem hd h hr
  refine ⟨hname, ?_, hconstant, ?_⟩
  · simp [propertiesRow, hconstant.line]
  · simp [propertiesRow, line_not_mem_fileName hname h hr]

/-- **The index of handlers** imports the interface and all classes, and its keys are the names. -/
theorem read_resourceIndexLayout (hd : AsciiPaths document)
    (h : Api.extract config document = .ok resources) :
    importedNames (resourceIndexLayout resources) =
        "ResourceHandler" :: resources.map (·.handlerClass) ∧
      tableKeys indexDeclaration (resourceIndexLayout resources) = resources.map (·.name) := by
  have hrows : ∀ w ∈ resources.map handlerRow, w.Fits :=
    List.forall_mem_map.mpr fun r hr => fits_handlerRow hd h hr
  have hhead : importedNames indexFrame.head = ["ResourceHandler"] := by decide +kernel
  rw [resourceIndexLayout_eq]
  constructor
  · rw [importedNames_table valid_indexFrame hrows, hhead, List.map_map]
    rfl
  · rw [show indexDeclaration = indexFrame.declaration from rfl,
      tableKeys_table valid_indexFrame hrows, List.map_map]
    rfl

/-- **The registry of properties** imports what it is made with and all constants, and its keys are
    the names. -/
theorem read_propertyRegistryLayout (hd : AsciiPaths document)
    (h : Api.extract config document = .ok resources) :
    importedNames (propertyRegistryLayout resources) =
        "INodeProperties" :: "getResourceOptions" :: resources.map (·.propertiesConstant) ∧
      tableKeys registryDeclaration (propertyRegistryLayout resources) =
        resources.map (·.name) := by
  have hrows : ∀ w ∈ resources.map propertiesRow, w.Fits :=
    List.forall_mem_map.mpr fun r hr => fits_propertiesRow hd h hr
  have hdefault : '\n' ∉ (defaultResource resources).toList := by
    cases resources with
    | nil => simp [defaultResource]
    | cons r resources => exact (fits_propertiesRow hd h List.mem_cons_self).key.line
  have hframe := valid_registryFrame hdefault
  have hhead : importedNames (registryFrame (defaultResource resources)).head =
      ["INodeProperties", "getResourceOptions"] := by
    simp only [registryFrame]
    decide +kernel
  rw [propertyRegistryLayout_eq]
  constructor
  · rw [importedNames_table hframe hrows, hhead, List.map_map]
    rfl
  · rw [show registryDeclaration = (registryFrame (defaultResource resources)).declaration from rfl,
      tableKeys_table hframe hrows, List.map_map]
    rfl

/-- No constant of a resource is one of the names that the registry is made with. -/
theorem propertiesConstant_ne (hd : AsciiPaths document)
    (h : Api.extract config document = .ok resources) (hr : r ∈ resources) :
    r.propertiesConstant ≠ "INodeProperties" ∧ r.propertiesConstant ≠ "getResourceOptions" := by
  rw [(Api.names_of_mem h hr).2, Name.propertiesConstant]
  constructor
  · intro heq
    have hname : r.name = "INode" := by
      rw [← String.toList_inj, ← List.append_cancel_right_eq _ "Properties".toList,
        ← String.toList_append, heq]
      decide
    -- the name would begin with a capital
    have hinitial := (Api.isCamel_name_of_mem hd h hr).initial
    rw [hname] at hinitial
    exact absurd (hinitial 'I' (by decide)) (by decide)
  · intro heq
    have hsuffix : "Properties".toList <:+ "getResourceOptions".toList :=
      ⟨r.name.toList, by rw [← heq, String.toList_append]⟩
    exact absurd hsuffix (by decide)

/-- **The names in the registry files** of a document with ASCII paths.  On ASCII texts camel case and
    Pascal case undo one another, and so no two resources have the same class or the same constant.
    The registry of properties imports no name twice, and neither table has two entries for a name.
    So it is with the imports of the index of handlers as well, unless a resource has the empty name:
    its class would be the interface of all classes, which is imported already. -/
theorem registry_names (hd : AsciiPaths document)
    (h : Api.extract config document = .ok resources) :
    (∀ x : String, Text.IsAscii x.toList → Name.camel (Name.camel x) = Name.camel x ∧
      Name.camel (Name.pascal x) = Name.camel x ∧ Name.pascal (Name.camel x) = Name.pascal x) ∧
    (resources.map (·.handlerClass)).Nodup ∧ (resources.map (·.propertiesConstant)).Nodup ∧
    ∃ registry index, propertyRegistryText resources = .ok registry ∧
      resourceIndexText resources = .ok index ∧
      importedNames registry =
        "INodeProperties" :: "getResourceOptions" :: resources.map (·.propertiesConstant) ∧
      importedNames index = "ResourceHandler" :: resources.map (·.handlerClass) ∧
      tableKeys registryDeclaration registry = resources.map (·.name) ∧
      tableKeys indexDeclaration index = resources.map (·.name) ∧
      (importedNames registry).Nodup ∧ (tableKeys registryDeclaration registry).Nodup ∧
      (tableKeys indexDeclaration index).Nodup ∧
      ((importedNames index).Nodup ↔ ∀ r ∈ resources, r.name ≠ "") := by
  have hclasses := Api.nodup_handlerClass hd h
  have hconstants := Api.nodup_propertiesConstant h
  obtain ⟨hregistry, hregistryKeys⟩ := read_propertyRegistryLayout hd h
  obtain ⟨hindex, hindexKeys⟩ := read_resourceIndexLayout hd h
  refine ⟨fun x hx => Name.camel_and_pascal hx, hclasses, hconstants, _, _,
    propertyRegistryText_eq resources, resourceIndexText_eq resources, hregistry, hindex,
    hregistryKeys, hindexKeys, ?_, ?_, ?_, ?_⟩
  · have hfirst : "INodeProperties" ∉
        "getResourceOptions" :: resources.map (·.propertiesConstant) := by
      rw [List.mem_cons, not_or, List.mem_map]
      exact ⟨by decide, fun ⟨r, hr, heq⟩ => (propertiesConstant_ne hd h hr).1 heq⟩
    have hsecond : "getResourceOptions" ∉ resources.map (·.propertiesConstant) := by
      rw [List.mem_map]
      exact fun ⟨r, hr, heq⟩ => (propertiesConstant_ne hd h hr).2 heq
    rw [hregistry]
    exact List.nodup_cons.mpr ⟨hfirst, List.nodup_cons.mpr ⟨hsecond, hconstants⟩⟩
  · rw [hregistryKeys]
    exact Api.nodup_name h
  · rw [hindexKeys]
    exact Api.nodup_name h
  · -- the classes are different from one another, and only that of the empty name is the interface
    have hinterface : "ResourceHandler" ∉ resources.map (·.handlerClass) ↔
        ∀ r ∈ resources, r.name ≠ "" := by
      rw [List.mem_map, not_exists]
      refine forall_congr' fun r => ?_
      rw [not_and]
      refine forall_congr' fun hr => ?_
      rw [(Api.names_of_mem h hr).1,
        Name.handlerClass_eq_interface_iff (Api.isCamel_name_of_mem hd h hr)]
    rw [hindex, List.nodup_cons, hinterface]
    exact and_iff_left hclasses

/-- Clients, and orders. -/
def clientsDocument : Value :=
  .object [("paths", .object
    [("/api/v1/api-clients", .object [("get", .object [])]),
     ("/api/v1/orders", .object [("get", .object []), ("post", .object [])])])]

theorem registry_names_clientsDocument :
    (Name.camel (Name.camel "api-client_id") = Name.camel "api-client_id" ∧
      Name.camel (Name.pascal "api-client_id") = Name.camel "api-client_id" ∧
      Name.pascal (Name.camel "api-client_id") = Name.pascal "api-client_id") ∧
    ∃ resources index, AsciiPaths clientsDocument ∧ Api.extract {} clientsDocument = .ok resources ∧
      resources.map (·.name) = ["apiClient", "order"] ∧
      (resources.map (·.handlerClass)).Nodup ∧ (resources.map (·.propertiesConstant)).Nodup ∧
      resourceIndexText resources = .ok index ∧
      tableKeys indexDeclaration index = resources.map (·.name) ∧
      (tableKeys indexDeclaration index).Nodup ∧ (importedNames index).Nodup := by
  have hnames : (Api.extract {} clientsDocument).toOption.map (·.map (·.name)) =
      some ["apiClient", "order"] :=
    Api.map_extract (g := id) (fun _ _ => rfl) ["apiClient", "order"] (by decide +kernel)
      (by decide +kernel)
  obtain ⟨resources, h, hnames⟩ := Api.exists_of_toOption hnames
  have hascii : AsciiPaths clientsDocument := by decide +kernel
  obtain ⟨hlaws, hclasses, hconstants, -, index, -, hindex, -, -, -, hkeys, -, -, hnodup, himports⟩ :=
    registry_names hascii h
  refine ⟨hlaws "api-client_id" (by decide), resources, index, hascii, h, hnames, hclasses,
    hconstants, hindex, hkeys, hnodup, himports.mpr fun r hr hname => ?_⟩
  have hempty : "" ∈ resources.map (·.name) := hname ▸ List.mem_map_of_mem hr
  rw [hnames] at hempty
  exact absurd hempty (by decide)

/-- A path segment of which nothing is left in the singular. -/
def namelessDocument : Value :=
  .object [("paths", .object [("/api/v1/s", .object [("get", .object [])])])]

/-- **The class of the empty name** is imported beside the interface of the same name. -/
theorem not_nodup_importedNames_namelessDocument :
    AsciiPaths namelessDocument ∧
    ∃ resources index, Api.extract {} namelessDocument = .ok resources ∧
      resourceIndexText resources = .ok index ∧
      importedNames index = ["ResourceHandler", "ResourceHandler"] ∧
      ¬ (importedNames index).Nodup := by
  have hclasses : ((Api.extract {} namelessDocument).toOption.map fun resources =>
      resources.map (·.handlerClass)) = some ["ResourceHandler"] := by
    decide +kernel
  have hascii : AsciiPaths namelessDocument := by decide +kernel
  obtain ⟨resources, h, hclasses⟩ := Api.exists_of_toOption hclasses
  have himports := (read_resourceIndexLayout hascii h).1
  rw [hclasses] at himports
  refine ⟨hascii, resources, _, h, resourceIndexText_eq resources, himports, ?_⟩
  rw [himports]
  decide

end ApiNodes.Artifact
