import ApiNodes.Proofs.Artifact.Declarations

namespace ApiNodes.Artifact

open Template

/-!
# Layout of the registry files

The texts of the registry of properties and of the index of handlers, given by the resources
that they fold together: each has an import and an entry for every resource.

* `resourceIndexText_eq`, `propertyRegistryText_eq` — both files are rendered, as their layouts.
-/

variable {scope : Scope} {resources : List Api.Resource}

/-! ### Index of handlers -/

/-- The entry of a resource in the table of handlers. -/
def handlerEntryText (r : Api.Resource) : String :=
  codeLine 1 (r.name ++ ": " ++ inBrackets .round "" ++ " => new " ++ r.handlerClass ++
    inBrackets .round "" ++ ",")

/-- The function that builds the handlers. -/
def handlersBuilderText : String :=
  codeLine 0 ("export function createResourceHandlers" ++ inBrackets .round "" ++
    ": Record<string, ResourceHandler> " ++
    codeBlock .curly 0
      (codeLine 1 ("const handlers: Record<string, ResourceHandler> = " ++ inBrackets .curly "" ++
          ";") ++
        codeLine 1 ("for " ++
          inBrackets .round ("const " ++ inBrackets .square "resource, factory" ++
            " of Object.entries" ++ inBrackets .round "RESOURCE_HANDLER_FACTORIES") ++ " " ++
          codeBlock .curly 1
            (codeLine 2 ("handlers" ++ inBrackets .square "resource" ++ " = factory" ++
              inBrackets .round "" ++ ";"))) ++
        codeLine 1 "return handlers;"))

/-- The file of the index of handlers. -/
def resourceIndexLayout (resources : List Api.Resource) : String :=
  codeLine 0 "// Resource handler exports" ++
    codeImport "import type" "ResourceHandler" "../../shared/resource-handler" ++
    String.join (resources.map handlerImportText) ++ "\n" ++
    codeComment ["Handler factories keyed by resource value"] ++
    codeLine 0 ("export const RESOURCE_HANDLER_FACTORIES: Record<string, " ++
      inBrackets .round "" ++ " => ResourceHandler> = " ++
      codeBlock .curly 0 (String.join (resources.map handlerEntryText)) ++ ";") ++
    "\n" ++ codeComment ["Instantiate one handler per resource"] ++ handlersBuilderText ++ "\n" ++
    codeLine 0 ("export type " ++ inBrackets .curly " ResourceHandler " ++ ";")

/-- An entry is filled in with its resource. -/
theorem fill_handlerEntry (r : Api.Resource) :
    fill handlerEntry (("resource", r.toValue) :: scope) = .ok (handlerEntryText r) := by
  simp [handlerEntry, handlerEntryText, Api.Resource.toValue]

/-- The function that builds the handlers has no holes. -/
theorem fill_handlersBuilder : fill handlersBuilder scope = .ok handlersBuilderText := by
  simp [handlersBuilder, handlersBuilderText]

/-- **The index of handlers is rendered**, as its layout. -/
theorem resourceIndexText_eq (resources : List Api.Resource) :
    resourceIndexText resources = .ok (resourceIndexLayout resources) := by
  have hresources : (Ref.name "resources").value [("resources", resourcesValue resources)] =
      .ok (.list (resources.map Api.Resource.toValue)) := by
    simp [resourcesValue]
  have himports (ps : List Part) := fill_each ps handlerImportText hresources
    fun r _ => fill_handlerImport r
  have hentries (ps : List Part) := fill_each ps handlerEntryText hresources
    fun r _ => fill_handlerEntry r
  simp [resourceIndexText, resourceIndex, resourceIndexLayout, himports, hentries,
    fill_handlersBuilder, fill_plainComment]

/-! ### Registry of properties -/

/-- The entry of a resource in the table of properties. -/
def propertiesEntryText (r : Api.Resource) : String :=
  codeLine 1 (r.name ++ ": " ++ r.propertiesConstant ++ ",")

/-- The type of lists of an item. -/
def listType (item : String) : String := item ++ inBrackets .square ""

/-- The interface of the registry. -/
def registryInterfaceText : String :=
  codeLine 0 ("export interface IPropertyRegistry " ++
    codeBlock .curly 0
      (codeLine 1 ("getResourceSelectionProperty" ++ inBrackets .round "" ++
          ": INodeProperties;") ++
        codeLine 1 ("getResourceProperties" ++ inBrackets .round "" ++
          listType ": INodeProperties" ++ ";") ++
        codeLine 1 ("getAllProperties" ++ inBrackets .round "" ++ listType ": INodeProperties" ++
          ";") ++
        codeLine 1 ("getPropertiesForResource" ++ inBrackets .round "resourceValue: string" ++
          listType ": INodeProperties" ++ ";")))

/-- A method of the registry whose body is one statement, after an empty line. -/
def registryMethodText (name parameters result statement : String) : String :=
  "\n" ++ codeLine 1 (name ++ inBrackets .round parameters ++ result ++ " " ++
    codeBlock .curly 1 (codeLine 2 statement))

/-- The property that selects the resource. -/
def resourceSelectorText (default : String) : String :=
  codeBlock .curly 2
    (codeEntry 3 "displayName" (codeLiteral "Resource") ++
      codeEntry 3 "name" (codeLiteral "resource") ++ codeEntry 3 "type" (codeLiteral "options") ++
      codeEntry 3 "noDataExpression" "true" ++
      codeEntry 3 "options" ("getResourceOptions" ++ inBrackets .round "") ++
      codeEntry 3 "default" (codeLiteral default))

/-- The class of the registry. -/
def registryClassText (default : String) : String :=
  codeLine 0 ("export class PropertyRegistry implements IPropertyRegistry " ++
    codeBlock .curly 0
      (codeLine 1 ("constructor" ++
          codeBlock .round 1
            (codeLine 2 ("private readonly resourcePropertiesMap: Record<string, INodeProperties" ++
              inBrackets .square "" ++ "> = " ++
              codeBlock .curly 2 (codeLine 3 "...RESOURCE_PROPERTIES,") ++ ",")) ++
          " " ++ inBrackets .curly "") ++
        registryMethodText "getResourceSelectionProperty" "" ": INodeProperties"
          ("return " ++ resourceSelectorText default ++ ";") ++
        registryMethodText "getResourceProperties" "" (listType ": INodeProperties")
          ("return Object.values" ++ inBrackets .round "this.resourcePropertiesMap" ++ ".flat" ++
            inBrackets .round "" ++ ";") ++
        registryMethodText "getAllProperties" "" (listType ": INodeProperties")
          ("return " ++
            inBrackets .square ("this.getResourceSelectionProperty" ++ inBrackets .round "" ++
              ", ...this.getResourceProperties" ++ inBrackets .round "") ++ ";") ++
        registryMethodText "getPropertiesForResource" "resourceValue: string"
          (listType ": INodeProperties")
          ("return this.resourcePropertiesMap" ++ inBrackets .square "resourceValue" ++ " || " ++
            inBrackets .square "" ++ ";")))

/-- The function that builds the registry. -/
def registryBuilderText : String :=
  codeLine 0 ("export function createPropertyRegistry" ++
    codeBlock .round 0
      (codeLine 1 ("resourcePropertiesMap?: Record<string, INodeProperties" ++
        inBrackets .square "" ++ ">,")) ++
    ": IPropertyRegistry " ++
    codeBlock .curly 0
      (codeLine 1 ("return new PropertyRegistry" ++ inBrackets .round "resourcePropertiesMap" ++
        ";")))

/-- The resource that the registry selects: the first one. -/
def defaultResource (resources : List Api.Resource) : String :=
  ((resources.map (·.name)).head?).getD ""

/-- The file of the registry of properties. -/
def propertyRegistryLayout (resources : List Api.Resource) : String :=
  codeImport "import type" "INodeProperties" hostPackage ++
    codeImport "import" "getResourceOptions" "./resource-config" ++
    String.join (resources.map propertiesImportText) ++ "\n" ++
    codeComment ["Generated properties for each resource, keyed by resource value"] ++
    codeLine 0 ("export const RESOURCE_PROPERTIES: Record<string, INodeProperties" ++
      inBrackets .square "" ++ "> = " ++
      codeBlock .curly 0 (String.join (resources.map propertiesEntryText)) ++ ";") ++
    "\n" ++ registryInterfaceText ++ "\n" ++
    codeComment ["Registry for managing all node properties in a centralized way"] ++
    registryClassText (defaultResource resources) ++ "\n" ++
    codeComment ["Build a registry over the generated resource properties"] ++ registryBuilderText

/-- An entry is filled in with its resource. -/
theorem fill_propertiesEntry (r : Api.Resource) :
    fill propertiesEntry (("resource", r.toValue) :: scope) = .ok (propertiesEntryText r) := by
  simp [propertiesEntry, propertiesEntryText, Api.Resource.toValue]

/-- The list type of the properties has no holes. -/
theorem fill_propertiesType : fill propertiesType scope = .ok (listType ": INodeProperties") := by
  simp [propertiesType, listType]

/-- The interface of the registry has no holes. -/
theorem fill_registryInterface : fill registryInterface scope = .ok registryInterfaceText := by
  simp [registryInterface, registryInterfaceText, fill_propertiesType]

/-- A method of the registry is filled in with its parts. -/
theorem fill_registryMethod {name : String} {parameters result statement : List Part} :
    fill (registryMethod name parameters result statement) scope =
      (fill parameters scope).bind fun p => (fill result scope).bind fun r =>
        (fill statement scope).map fun s => registryMethodText name p r s := by
  cases hp : fill parameters scope <;> cases hr : fill result scope <;>
    cases hs : fill statement scope <;>
      simp [registryMethod, registryMethodText, hp, hr, hs]

/-- The property that selects the resource is filled in with it. -/
theorem fill_resourceSelector {default : String} {ps : List Part}
    (h : (Ref.name "default_resource").value scope = .ok (.str default)) :
    fill (resourceSelector :: ps) scope =
      (fill ps scope).map (resourceSelectorText default ++ ·) := by
  simp [resourceSelector, resourceSelectorText, h]

/-- The class of the registry is filled in with the resource that it selects. -/
theorem fill_registryClass {default : String}
    (h : (Ref.name "default_resource").value scope = .ok (.str default)) :
    fill registryClass scope = .ok (registryClassText default) := by
  simp [registryClass, registryClassText, fill_registryMethod, fill_resourceSelector h,
    fill_propertiesType]

/-- The function that builds the registry has no holes. -/
theorem fill_registryBuilder : fill registryBuilder scope = .ok registryBuilderText := by
  simp [registryBuilder, registryBuilderText]

/-- **The registry of properties is rendered**, as its layout. -/
theorem propertyRegistryText_eq (resources : List Api.Resource) :
    propertyRegistryText resources = .ok (propertyRegistryLayout resources) := by
  have hscope : propertyRegistryText resources = fill propertyRegistry
      [("resources", resourcesValue resources),
        ("default_resource", .str (defaultResource resources))] := by
    -- without resources the default is empty as well
    cases resources <;> rfl
  rw [hscope]
  generalize hdefault : defaultResource resources = default
  have hresources : (Ref.name "resources").value [("resources", resourcesValue resources),
      ("default_resource", .str default)] =
      .ok (.list (resources.map Api.Resource.toValue)) := by
    simp [resourcesValue]
  have himports (ps : List Part) := fill_each ps propertiesImportText hresources
    fun r _ => fill_propertiesImport r
  have hentries (ps : List Part) := fill_each ps propertiesEntryText hresources
    fun r _ => fill_propertiesEntry r
  have hclass : fill registryClass [("resources", resourcesValue resources),
      ("default_resource", .str default)] = .ok (registryClassText default) :=
    fill_registryClass (by simp)
  simp [propertyRegistry, propertyRegistryLayout, himports, hentries, hclass, hdefault,
    fill_registryInterface, fill_registryBuilder, fill_plainComment]

end ApiNodes.Artifact
