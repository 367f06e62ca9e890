import ApiNodes.Template.Handler
import ApiNodes.Template.Properties
import ApiNodes.Template.Registry
import ApiNodes.Template.Webhooks
import ApiNodes.Text.Pieces

namespace ApiNodes.Template

/-!
# The catalog of templates

The templates by the names of their files.
-/

/-- The templates by name. -/
def catalog : List (String × List Part) :=
  [("handler.ts.j2", handler), ("properties.ts.j2", properties),
   ("property-registry.ts.j2", propertyRegistry), ("resource-config.ts.j2", resourceConfig),
   ("resource-handler.ts.j2", sharedHandler), ("resource-index.ts.j2", resourceIndex),
   ("webhook-events.ts.j2", webhookEvents), ("webhook-types.ts.j2", webhookTypes)]

/-- The template of a name.  Empty pieces of the name and single periods count for nothing;
    two periods lead nowhere. -/
def find? (name : String) : Option (List Part) :=
  match (Text.pieces '/' name).filter fun p => p != "" && p != "." with
  | [p] => lookup? p catalog
  | _ => none

/-- Names under which no value may be given. -/
def reservedNames : List String := ["self", "template_name"]

/-- The text of a template of the catalog in a scope. -/
def render (name : String) (scope : Scope) : Except RenderError String :=
  if scope.any fun entry => entry.1 ∈ reservedNames then .error .reservedName
  else
    match find? name with
    | none => .error .noTemplate
    | some template => fill template scope

end ApiNodes.Template
