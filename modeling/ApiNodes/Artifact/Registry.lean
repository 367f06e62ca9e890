import ApiNodes.Api.Resource
import ApiNodes.Template.Registry

namespace ApiNodes.Artifact

/-!
# Registry files

The files that fold the resources of a node together, by their paths within the node.
-/

/-- The path of the registry of properties. -/
def propertyRegistryPath : String := "property-registry.ts"

/-- The path of the index of handlers. -/
def resourceIndexPath : String := "resources/index.ts"

/-- The path of the labels of resources. -/
def resourceConfigPath : String := "resource-config.ts"

/-- The value of resources. -/
def resourcesValue (resources : List Api.Resource) : Value :=
  .list (resources.map Api.Resource.toValue)

/-- The text of the registry of properties, which selects the first resource. -/
def propertyRegistryText (resources : List Api.Resource) : Except Template.RenderError String :=
  let first := match resources with | r :: _ => r.name | [] => ""
  Template.fill Template.propertyRegistry
    [("resources", resourcesValue resources), ("default_resource", .str first)]

/-- The text of the index of handlers. -/
def resourceIndexText (resources : List Api.Resource) : Except Template.RenderError String :=
  Template.fill Template.resourceIndex [("resources", resourcesValue resources)]

/-- The text of the labels of resources of a node. -/
def resourceConfigText (nodeLabel : String) (resources : List Api.Resource) :
    Except Template.RenderError String :=
  Template.fill Template.resourceConfig
    [("resources", resourcesValue resources), ("node_display_name", .str nodeLabel)]

/-- The registry files of a node. -/
def registryFiles (nodeLabel : String) (resources : List Api.Resource) :
    Except Template.RenderError (List (String × String)) := do
  return [(propertyRegistryPath, ← propertyRegistryText resources),
    (resourceIndexPath, ← resourceIndexText resources),
    (resourceConfigPath, ← resourceConfigText nodeLabel resources)]

/-- The text of the interface that all handlers share. -/
def sharedHandlerText : Except Template.RenderError String :=
  Template.fill Template.sharedHandler []

end ApiNodes.Artifact
