import ApiNodes.Template.Code

namespace ApiNodes.Template

/-!
# The templates of the registry

Three files fold the resources of a node together: the registry of their properties, the
index of their handlers, and the list of their labels.  A fourth holds the interface that
all handlers share.
-/

/-- The list type of the properties. -/
def propertiesType : List Part := [.text ": INodeProperties", square []]

/-! ### Registry of properties -/

/-- The import of the properties of a resource. -/
def propertiesImport : List Part :=
  importOf "import" [.hole (.plain (.field "resource" "properties_export_name"))]
    [.text "./properties/", .hole (.plain (.field "resource" "file_name")), .text "-properties"]

/-- The entry of a resource in the table of properties. -/
def propertiesEntry : List Part :=
  line 1 [.hole (.plain (.field "resource" "name")), .text ": ",
    .hole (.plain (.field "resource" "properties_export_name")), .text ","]

/-- The interface of the registry. -/
def registryInterface : List Part :=
  line 0 [.text "export interface IPropertyRegistry ",
    block .curly 0
      [line 1 [.text "getResourceSelectionProperty", round [], .text ": INodeProperties;"],
       line 1 (.text "getResourceProperties" :: round [] :: propertiesType ++ [.text ";"]),
       line 1 (.text "getAllProperties" :: round [] :: propertiesType ++ [.text ";"]),
       line 1 (.text "getPropertiesForResource" :: round [.text "resourceValue: string"] ::
         propertiesType ++ [.text ";"])]]

/-- A method of the registry whose body is one statement, after an empty line. -/
def registryMethod (name : String) (parameters result statement : List Part) : List Part :=
  .text "\n" ::
  line 1 (.text name :: round parameters :: result ++
    [.text " ", block .curly 1 [line 2 statement]])

/-- The property that selects the resource. -/
def resourceSelector : Part :=
  block .curly 2
    [entry 3 "displayName" [literal "Resource"],
     entry 3 "name" [literal "resource"],
     entry 3 "type" [literal "options"],
     entry 3 "noDataExpression" [.text "true"],
     entry 3 "options" [.text "getResourceOptions", round []],
     entry 3 "default" [filled (.plain (.name "default_resource"))]]

/-- The class of the registry. -/
def registryClass : List Part :=
  line 0 [.text "export class PropertyRegistry implements IPropertyRegistry ",
    block .curly 0
      [line 1 [.text "constructor",
        block .round 1
          [line 2 [.text "private readonly resourcePropertiesMap: Record<string, INodeProperties",
            square [], .text "> = ", plainBlock .curly 2 ["...RESOURCE_PROPERTIES,"], .text ","]],
        .text " ", curly []],
       registryMethod "getResourceSelectionProperty" [] [.text ": INodeProperties"]
         [.text "return ", resourceSelector, .text ";"],
       registryMethod "getResourceProperties" [] propertiesType
         [.text "return Object.values", round [.text "this.resourcePropertiesMap"],
          .text ".flat", round [], .text ";"],
       registryMethod "getAllProperties" [] propertiesType
         [.text "return ",
          square [.text "this.getResourceSelectionProperty", round [],
            .text ", ...this.getResourceProperties", round []],
          .text ";"],
       registryMethod "getPropertiesForResource" [.text "resourceValue: string"] propertiesType
         [.text "return this.resourcePropertiesMap", square [.text "resourceValue"],
          .text " || ", square [], .text ";"]]]

/-- The function that builds the registry. -/
def registryBuilder : List Part :=
  line 0 [.text "export function createPropertyRegistry",
    block .round 0
      [line 1 [.text "resourcePropertiesMap?: Record<string, INodeProperties", square [],
        .text ">,"]],
    .text ": IPropertyRegistry ",
    block .curly 0
      [line 1 [.text "return new PropertyRegistry", round [.text "resourcePropertiesMap"],
        .text ";"]]]

/-- The file of the registry of properties. -/
def propertyRegistry : List Part :=
  plainImport "import type" "INodeProperties" hostPackage ++
  plainImport "import" "getResourceOptions" "./resource-config" ++
  [.each "resource" (.name "resources") propertiesImport, .text "\n"] ++
  plainComment ["Generated properties for each resource, keyed by resource value"] ++
  line 0 [.text "export const RESOURCE_PROPERTIES: Record<string, INodeProperties", square [],
    .text "> = ", block .curly 0 [[.each "resource" (.name "resources") propertiesEntry]],
    .text ";"] ++
  [.text "\n"] ++ registryInterface ++ [.text "\n"] ++
  plainComment ["Registry for managing all node properties in a centralized way"] ++
  registryClass ++ [.text "\n"] ++
  plainComment ["Build a registry over the generated resource properties"] ++
  registryBuilder

/-! ### Index of handlers -/

/-- The import of the handler of a resource. -/
def handlerImport : List Part :=
  importOf "import" [.hole (.plain (.field "resource" "handler_class_name"))]
    [.text "./handlers/", .hole (.plain (.field "resource" "file_name")), .text "-handler"]

/-- The entry of a resource in the table of handlers. -/
def handlerEntry : List Part :=
  line 1 [.hole (.plain (.field "resource" "name")), .text ": ", round [], .text " => new ",
    .hole (.plain (.field "resource" "handler_class_name")), round [], .text ","]

/-- The function that builds the handlers. -/
def handlersBuilder : List Part :=
  line 0 [.text "export function createResourceHandlers", round [],
    .text ": Record<string, ResourceHandler> ",
    block .curly 0
      [line 1 [.text "const handlers: Record<string, ResourceHandler> = ", curly [], .text ";"],
       line 1 [.text "for ",
        round [.text "const ", square [.text "resource, factory"], .text " of Object.entries",
          round [.text "RESOURCE_HANDLER_FACTORIES"]],
        .text " ",
        block .curly 1
          [line 2 [.text "handlers", square [.text "resource"], .text " = factory", round [],
            .text ";"]]],
       plainLine 1 "return handlers;"]]

/-- The file of the index of handlers. -/
def resourceIndex : List Part :=
  plainLine 0 "// Resource handler exports" ++
  plainImport "import type" "ResourceHandler" "../../shared/resource-handler" ++
  [.each "resource" (.name "resources") handlerImport, .text "\n"] ++
  plainComment ["Handler factories keyed by resource value"] ++
  line 0 [.text "export const RESOURCE_HANDLER_FACTORIES: Record<string, ", round [],
    .text " => ResourceHandler> = ",
    block .curly 0 [[.each "resource" (.name "resources") handlerEntry]], .text ";"] ++
  [.text "\n"] ++
  plainComment ["Instantiate one handler per resource"] ++
  handlersBuilder ++ [.text "\n"] ++
  line 0 [.text "export type ", curly [.text " ResourceHandler "], .text ";"]

/-! ### Labels of resources -/

/-- The label and the name of a resource. -/
def labelEntry : List Part :=
  element 1 (curly
    [.text " name: ", filled (.escaped (.field "resource" "display_name")), .text ", value: ",
     filled (.plain (.field "resource" "name")), .text " "])

/-- The option of a resource in its selector. -/
def resourceOption : List Part :=
  element 2 (block .curly 2
    [entry 3 "name" [filled (.escaped (.field "resource" "display_name"))],
     entry 3 "value" [filled (.plain (.field "resource" "name"))],
     entry 3 "description" [filled (.described (.field "resource" "description"))]])

/-- The file of the labels of resources. -/
def resourceConfig : List Part :=
  plainImport "import type" "INodePropertyOptions" hostPackage ++
  [.text "\n"] ++
  line 0 [.text "export interface IResourceConfig ",
    plainBlock .curly 0 ["name: string;", "value: string;"]] ++
  [.text "\n"] ++
  comment
    [[.text "Central configuration for all resources in the ",
      .hole (.plain (.name "node_display_name")), .text " node"],
     [.text originLine]] ++
  line 0 [.text "export const RESOURCE_CONFIGS: IResourceConfig", square [], .text " = ",
    block .square 0 [[.each "resource" (.name "resources") labelEntry]], .text ";"] ++
  [.text "\n"] ++
  plainComment ["Generate resource options for the node property dropdown"] ++
  line 0 [.text "export function getResourceOptions", round [], .text ": INodePropertyOptions",
    square [], .text " ",
    block .curly 0
      [line 1 [.text "return ",
        block .square 1 [[.each "resource" (.name "resources") resourceOption]], .text ";"]]] ++
  [.text "\n"] ++
  plainComment ["Find resource configuration by value"] ++
  line 0 [.text "export function getResourceConfig", round [.text "resourceValue: string"],
    .text ": IResourceConfig | undefined ",
    block .curly 0
      [line 1 [.text "return RESOURCE_CONFIGS.find",
        round [round [.text "config"], .text " => config.value === resourceValue"],
        .text ";"]]]

/-! ### The shared interface -/

/-- The file of the interface that all handlers share. -/
def sharedHandler : List Part :=
  plainImport "import type" "IExecuteFunctions, INode" hostPackage ++
  plainImport "import" "NodeOperationError" hostPackage ++
  plainImport "import type" "INalpeironCredentials" "./utils" ++
  [.text "\n"] ++
  plainComment ["Capability implemented by every generated resource handler"] ++
  line 0 [.text "export interface ResourceHandler ",
    block .curly 0
      [line 1 [.text "executeOperation",
        plainBlock .round 1
          ["executeFunctions: IExecuteFunctions,", "operation: string,",
           "credentials: INalpeironCredentials,", "accessToken: string,", "itemIndex: number,"],
        .text ": Promise<any>;"]]] ++
  [.text "\n"] ++
  plainComment ["Raised when a handler is asked for an operation its UI never offered"] ++
  line 0 [.text "export class UnknownOperationError extends NodeOperationError ",
    block .curly 0
      [line 1 [.text "constructor",
        plainBlock .round 1 ["readonly operation: string,", "node: INode,"],
        .text " ",
        block .curly 1
          [line 2 [.text "super",
            round [.text "node, ",
              .literal '\x60' [.text "Unknown operation: $\x7boperation\x7d"]],
            .text ";"]]]]]

end ApiNodes.Template
