import ApiNodes.Template.Code

namespace ApiNodes.Template

/-!
# The template of the properties

The properties of a resource are the fields of its form: the selector of the operation, one
field for each path parameter, the additional fields of the list operations, and the body of
the operations that send one.  Each field says for which operations it is shown.
-/

/-- The condition under which a field is shown: the resource, and the operations that are
    given. -/
def shownFor (operations : List (List Part)) : List Part :=
  entry 2 "displayOptions"
    [block .curly 2
      [entry 3 "show"
        [block .curly 3
          (entry 4 "resource" [square [filled (.plain (.field "resource" "name"))]] ::
            operations)]]]

/-- The operations for which a field is shown. -/
def shownOperations (operations : Ref) : List Part :=
  entry 4 "operation" [square [.hole (.quoted operations)]]

/-- One operation of the selector. -/
def operationOption : List Part :=
  element 3 (block .curly 3
    [entry 4 "name" [filled (.escaped (.field "option" "display_name"))],
     entry 4 "value" [filled (.plain (.field "option" "value"))],
     entry 4 "description" [filled (.plain (.field "option" "description"))],
     entry 4 "action" [filled (.escaped (.field "option" "action"))]])

/-- The selector of the operation. -/
def operationSelector : List Part :=
  line 1 [.text "// ", .hole (.plain (.field "resource" "display_name")), .text " Operations"] ++
  element 1 (block .curly 1
    [entry 2 "displayName" [literal "Operation"],
     entry 2 "name" [literal "operation"],
     entry 2 "type" [literal "options"],
     entry 2 "noDataExpression" [.text "true"],
     shownFor [],
     entry 2 "options"
       [block .square 2 [[.each "option" (.name "operation_options") operationOption]]],
     entry 2 "default" [filled (.plain (.name "default_operation"))]])

/-- The field of a path parameter. -/
def pathField : List Part :=
  line 1 [.text "// ", .hole (.plain (.field "field" "display_name")), .text " parameter"] ++
  element 1 (block .curly 1
    [entry 2 "displayName" [filled (.escaped (.field "field" "display_name"))],
     entry 2 "name" [filled (.escaped (.field "field" "name"))],
     entry 2 "type" [filled (.plain (.field "field" "type"))],
     entry 2 "required" [.hole (.plain (.field "field" "required"))],
     shownFor [shownOperations (.field "field" "operations")],
     entry 2 "default" [literal ""],
     entry 2 "description" [filled (.plain (.field "field" "description"))]])

/-- One of the additional fields. -/
def listField : List Part :=
  element 3 (block .curly 3
    [entry 4 "displayName" [filled (.escaped (.field "field" "display_name"))],
     entry 4 "name" [filled (.escaped (.field "field" "name"))],
     entry 4 "type" [filled (.plain (.field "field" "type"))],
     [.when (.notNull (.field "field" "min_value"))
       (entry 4 "typeOptions"
         [block .curly 4 [entry 5 "minValue" [.hole (.plain (.field "field" "min_value"))]]])],
     entry 4 "default" [.hole (.plain (.field "field" "default"))],
     entry 4 "description" [filled (.plain (.field "field" "description"))]])

/-- The collection of the additional fields. -/
def additionalFields : List Part :=
  plainLine 1 "// Additional fields for list operations" ++
  element 1 (block .curly 1
    [entry 2 "displayName" [literal "Additional Fields"],
     entry 2 "name" [literal "additionalFields"],
     entry 2 "type" [literal "collection"],
     entry 2 "placeholder" [literal "Add Field"],
     entry 2 "default" [curly []],
     shownFor [shownOperations (.name "list_operation_names")],
     entry 2 "options" [block .square 2 [[.each "field" (.name "list_fields") listField]]]])

/-- The field of the body. -/
def bodyField : List Part :=
  plainLine 1 "// Request body for create/update operations" ++
  element 1 (block .curly 1
    [entry 2 "displayName" [literal "Body"],
     entry 2 "name" [literal "body"],
     entry 2 "type" [literal "json"],
     entry 2 "default" [literal "\x7b\x7d"],
     shownFor [shownOperations (.name "write_operation_names")],
     entry 2 "description" [literal "Request body data as JSON"]])

/-- The file of the properties. -/
def properties : List Part :=
  plainImport "import type" "INodeProperties" hostPackage ++
  [.text "\n"] ++
  line 0 [.text "export const ", .hole (.plain (.field "resource" "properties_export_name")),
    .text ": INodeProperties", square [], .text " = ",
    block .square 0
      [operationSelector,
       [.each "field" (.name "path_fields") pathField],
       [.when (.truthy (.name "list_operation_names")) additionalFields],
       [.when (.truthy (.name "write_operation_names")) bodyField]],
    .text ";"]

end ApiNodes.Template
