import ApiNodes.Api.Extract
import ApiNodes.Api.Config
import ApiNodes.Artifact.Handler
import ApiNodes.Artifact.Properties
import ApiNodes.Artifact.Registry
import ApiNodes.Run.Download
import ApiNodes.Run.Generated
import ApiNodes.Run.Versions

namespace ApiNodes.Run

open Files (Path)

/-!
# Generating a node

A generation loads a document, clears the old files away, writes the files of each resource
and then the registry, and records the version.  Files are only written after the batch that
they belong to is reviewed: a batch is the files of one resource, or the registry.
-/

/-! ### Settings -/

/-- How the files of a node are rendered. -/
structure Renderer where
  handler : Api.Resource → Except Template.RenderError String
  properties : Api.Resource → Except Template.RenderError String
  /-- The registry files of a node, by its label and its resources. -/
  registry : String → List Api.Resource → Except Template.RenderError (List (String × String))
  shared : Except Template.RenderError String

/-- The renderer by the templates. -/
def Renderer.standard : Renderer where
  handler := Artifact.handlerText
  properties := Artifact.propertiesText
  registry := Artifact.registryFiles
  shared := Artifact.sharedHandlerText

/-- The file that versions are recorded in, unless another is given. -/
def defaultVersionFile : Path := .ofString "api-version.json"

/-- The component that is generated without a product. -/
def defaultComponent : String := "NalpeironZentitle2"

/-- What to generate. -/
structure Generation where
  output : Path
  source : Option String := none
  config : Api.Config := {}
  versionFile : Path := defaultVersionFile
  component : String := defaultComponent
  nodeLabel : String := "Nalpeiron"
  timeout : Value := .null
  renderer : Renderer := .standard

/-- What was generated. -/
structure Outcome where
  component : String
  apiVersion : String
  resources : List String
  files : List Path
  deriving Repr

/-! ### Resources -/

/-- The path of the handler file of a resource. -/
def handlerPath (r : Api.Resource) : String := "resources/handlers/" ++ r.fileName ++ handlerEnding

/-- The path of the property file of a resource. -/
def propertiesPath (r : Api.Resource) : String := "properties/" ++ r.fileName ++ propertiesEnding

/-- The files of a resource that the configuration asks for. -/
def resourceFiles (g : Generation) (r : Api.Resource) :
    Except Template.RenderError (List (String × String)) := do
  let handler ← if g.config.generateHandlers then
    (fun s => [(handlerPath r, s)]) <$> g.renderer.handler r else pure []
  let properties ← if g.config.generateProperties then
    (fun s => [(propertiesPath r, s)]) <$> g.renderer.properties r else pure []
  return handler ++ properties

/-- Write the files of a resource. -/
def generateResource (g : Generation) (r : Api.Resource) : Run (List Path) := do
  inform .generation ("Generating resource: " ++ r.name)
  let files ← rendered (resourceFiles g r)
  requireSound files
  writeArtifacts g.output .generation "  Wrote " files

/-- Write the files of resources, one resource after the other. -/
def generateResources (g : Generation) : List Api.Resource → Run (List Path)
  | [] => return []
  | r :: rs => do
    let written ← generateResource g r
    return written ++ (← generateResources g rs)

/-! ### Registry -/

/-- Write the registry files. -/
def writeRegistry (output : Path) (files : List (String × String)) : Run (List Path) := do
  inform .registry "Updating registry files..."
  writeArtifacts output .registry "  Regenerated " files

/-- The path, from the folder of a node, of the interface that the handlers of all nodes
    share. -/
def sharedName : String := "../shared/resource-handler.ts"

/-- The path of the shared interface. -/
def sharedPath (output : Path) : Run Path := do
  checkNull output
  let w ← get
  return (output.join (.ofString sharedName)).resolved w.top w.current

/-- Write the shared interface unless something is there already. -/
def ensureShared (renderer : Renderer) (output : Path) : Run (Option Path) := do
  let p ← sharedPath output
  if ← isThere p then return none
  let content ← rendered renderer.shared
  let _ ← writeArtifact p content
  inform .registry ("  Created " ++ p.text)
  return some p

/-- Write the registry of resources. -/
def updateRegistry (g : Generation) (resources : List Api.Resource) : Run (List Path) := do
  let files ← rendered (g.renderer.registry g.nodeLabel resources)
  requireSound files
  let written ← writeRegistry g.output files
  return written ++ (← ensureShared g.renderer g.output).toList

/-! ### Extraction -/

/-- What the log says of an endpoint that was renamed. -/
def renamingText (e : Api.Endpoint) (name : String) : String :=
  "Renamed " ++ e.method ++ " " ++ e.path ++ " operation " ++ e.key ++ " -> " ++ name

/-- Write renamings to the log. -/
def recordRenamings : List (Api.Endpoint × String) → Run Unit
  | [] => return
  | (e, name) :: rest => do
    record .debug .extraction (renamingText e name)
    recordRenamings rest

/-- The resources of a document. -/
def extractResources (config : Api.Config) (document : Value) : Run (List Api.Resource) := do
  recordRenamings (Api.renamings (Api.reached config document))
  match Api.extract config document with
  | .ok resources => return resources
  | .error e => throw (.extract e)

/-! ### Generation -/

/-- Remove the old files of a node. -/
def clearNode (output : Path) : Run Unit := do
  inform .generation "Cleaning generated directories..."
  let _ ← cleanGenerated (output.join (.ofString "resources/handlers")) handlerEnding
  let _ ← cleanGenerated (output.join (.ofString "properties")) propertiesEnding

/-- A list of texts as a value, or the null value. -/
def listOrNull (xs : Option (List String)) : Value := (xs.map fun l => .list (l.map .str)).getD .null

/-- What is recorded of a generated node. -/
def generationMetadata (config : Api.Config) (resources : Nat) : Entries :=
  [(.str "generatedBy", .str "openapi-generator"), (.str "resourceCount", .int resources),
   (.str "config", .object [("methods", listOrNull config.allowedMethods),
     ("excludedResources", listOrNull config.excludedResources),
     ("includedTags", listOrNull config.includedTags)])]

/-- Generate a node from a document that was loaded. -/
def generateFrom (g : Generation) (loaded : Loaded) : Run Outcome := do
  clearNode g.output
  let resources ← extractResources g.config loaded.document
  inform .generation ("Found " ++ toString resources.length ++ " resources to generate")
  let written ← generateResources g resources
  let registry ← if g.config.updateRegistry then updateRegistry g resources else pure []
  let _ ← recordComponent g.versionFile g.component ⟨loaded.source, loaded.version⟩
    (generationMetadata g.config resources.length)
  inform .generation "Code generation completed successfully!"
  return { component := g.component, apiVersion := loaded.version
           resources := resources.map (·.name), files := written ++ registry }

/-- Generate a node. -/
def generate (g : Generation) : Run Outcome := do
  inform .generation "Starting OpenAPI code generation..."
  let loaded ← load g.source g.timeout
  ensuring (generateFrom g loaded) (dropScratch loaded.scratch)

end ApiNodes.Run
