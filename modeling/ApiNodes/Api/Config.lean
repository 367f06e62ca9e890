import ApiNodes.Document.Fields
import ApiNodes.Text.Blank
import ApiNodes.Text.Casing
import ApiNodes.Text.Pieces

namespace ApiNodes.Api

/-!
# Configurations

A configuration says which operations are taken from a document and which files are
generated for them.  A product is a preset; a configuration is built from a product and
explicit filters.
-/

/-! ### Configurations -/

/-- The switches and filters of a run.  A filter that is absent or empty lets everything
    through. -/
structure Config where
  generateHandlers : Bool := true
  generateProperties : Bool := true
  updateRegistry : Bool := true
  /-- The methods to take, in capital letters. -/
  allowedMethods : Option (List String) := none
  /-- The resources to leave out, whatever the case of their letters. -/
  excludedResources : Option (List String) := none
  /-- The tags of which an operation must carry one. -/
  includedTags : Option (List String) := none
  /-- The operation ids to leave out of each resource. -/
  excludedOperations : Option (List (String × List String)) := none
  deriving DecidableEq, Repr

/-- Read a configuration. -/
def Config.read (fields : List (Value × Value)) : Checked Config :=
  Config.mk <$> withDefault "generate_handlers" true readTruth fields
    <*> withDefault "generate_properties" true readTruth fields
    <*> withDefault "update_registry" true readTruth fields
    <*> withDefault "allowed_methods" none (readOptional (readList readText)) fields
    <*> withDefault "excluded_resources" none (readOptional (readList readText)) fields
    <*> withDefault "include_only_tags" none (readOptional (readList readText)) fields
    <*> withDefault "excluded_operations" none (readOptional (readTable (readList readText)))
      fields

/-- A list of texts, or the null value. -/
def textsOrNull : Option (List String) → Value
  | some xs => .list (xs.map .str)
  | none => .null

/-- A table of lists of texts. -/
def textTable (table : List (String × List String)) : Value :=
  .object (table.map fun (k, xs) => (k, .list (xs.map .str)))

/-- The mapping of a configuration. -/
def Config.toValue (c : Config) : Value :=
  .object [("generate_handlers", .bool c.generateHandlers),
    ("generate_properties", .bool c.generateProperties),
    ("update_registry", .bool c.updateRegistry),
    ("allowed_methods", textsOrNull c.allowedMethods),
    ("excluded_resources", textsOrNull c.excludedResources),
    ("include_only_tags", textsOrNull c.includedTags),
    ("excluded_operations", (c.excludedOperations.map textTable).getD .null)]

/-! ### Products -/

/-- A preset. -/
structure Product where
  tag : String
  outputDir : String
  displayName : String
  componentName : String
  excludedResources : List String := []
  excludedOperations : List (String × List String) := []
  excludedWebhooks : List String := []
  deriving DecidableEq, Repr

/-- Read a product. -/
def Product.read (fields : List (Value × Value)) : Checked Product :=
  Product.mk <$> required "tag" readText fields
    <*> required "output_dir" readText fields
    <*> required "display_name" readText fields
    <*> required "component_name" readText fields
    <*> withDefault "excluded_resources" [] (readList readText) fields
    <*> withDefault "excluded_operations" [] (readTable (readList readText)) fields
    <*> withDefault "excluded_webhooks" [] (readList readText) fields

/-- The mapping of a product. -/
def Product.toValue (p : Product) : Value :=
  .object [("tag", .str p.tag), ("output_dir", .str p.outputDir),
    ("display_name", .str p.displayName), ("component_name", .str p.componentName),
    ("excluded_resources", .list (p.excludedResources.map .str)),
    ("excluded_operations", textTable p.excludedOperations),
    ("excluded_webhooks", .list (p.excludedWebhooks.map .str))]

/-- The products by name. -/
def products : List (String × Product) :=
  [("zentitle",
    { tag := "Zentitle", outputDir := "nodes/Nalpeiron/Zentitle2", displayName := "Zentitle2",
      componentName := "NalpeironZentitle2",
      excludedResources := ["tenant", "abl", "account", "localLicenseServer"] }),
   ("zengain",
    { tag := "Zengain", outputDir := "nodes/Nalpeiron/Zengain", displayName := "Zengain",
      componentName := "NalpeironZengain",
      excludedResources := ["account", "insight", "product", "subscription"] })]

/-! ### From filters to a configuration -/

/-- The items of a comma-separated text, without the blank ones. -/
def splitList (s : String) : List String :=
  ((Text.cut ',' s.toList).map Text.trimChars).filterMap fun item =>
    if item.isEmpty then none else some (.ofList item)

/-- A list, or nothing when it is empty. -/
def nonempty? {α : Type} : List α → Option (List α)
  | [] => none
  | xs => some xs

/-- The filters that are given for a run. -/
structure Filters where
  product : Option Product := none
  includeTags : List String := []
  excludeResources : List String := []
  getOnly : Bool := false
  noDefaults : Bool := false
  deriving DecidableEq, Repr

/-- The configuration of a run.  A product adds its exclusions, stands in with its tag when
    no tags are given, and restricts the methods to `GET` unless the defaults are dropped. -/
def Filters.config (f : Filters) : Config :=
  let tags :=
    match f.product, f.includeTags with
    | some p, [] => [p.tag]
    | _, tags => tags
  let excluded :=
    match f.product with
    | some p =>
      p.excludedResources ++ f.excludeResources.filter fun r => r ∉ p.excludedResources
    | none => f.excludeResources
  let getOnly := f.getOnly || (f.product.isSome && !f.noDefaults)
  { allowedMethods := if getOnly then some ["GET"] else none
    excludedResources := nonempty? (excluded.map Text.lower)
    includedTags := nonempty? tags
    excludedOperations := f.product.bind fun p => nonempty? p.excludedOperations }

end ApiNodes.Api
