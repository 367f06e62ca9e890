import ApiNodes.Artifact.Properties
import ApiNodes.Proofs.Template.Layout

namespace ApiNodes.Artifact

open Template
open Typescript (escape quotedList)

/-!
# Layout of properties

The text of properties, given by their fields: the selector with one option for each
operation, a field for each path parameter, and, where there are operations for them, the
additional fields and the body.

* `operationSelectorText`, `PathField.text`, `additionalFieldsFieldText`, `bodyFieldText` —
  what stands in the file for each;
* `Properties.layout` — the file;
* `Properties.text_eq` — all properties are rendered, as their layout.
-/

variable {scope : Scope} {resource : String}

/-! ### Conditions -/

/-- The condition under which a field is shown. -/
def shownText (resource operations : String) : String :=
  codeEntry 2 "displayOptions"
    (codeBlock .curly 2
      (codeEntry 3 "show"
        (codeBlock .curly 3
          (codeEntry 4 "resource" (inBrackets .square (codeLiteral resource)) ++ operations))))

/-- The operations for which a field is shown. -/
def shownOperationsText (operations : List String) : String :=
  codeEntry 4 "operation" (inBrackets .square (quotedList operations))

/-- A condition is filled in with the name of the resource. -/
theorem fill_shownFor {operations : List (List Part)} {s : String}
    (hname : (Ref.field "resource" "name").value scope = .ok (.str resource))
    (h : fill operations.flatten scope = .ok s) :
    fill (shownFor operations) scope = .ok (shownText resource s) := by
  simp [shownFor, shownText, hname, h]

/-- The operations are filled in. -/
theorem fill_shownOperations {r : Ref} {xs : List String}
    (h : r.value scope = .ok (.list (xs.map .str))) :
    fill [shownOperations r].flatten scope = .ok (shownOperationsText xs) := by
  simp [shownOperations, shownOperationsText, fill_quoted h]

/-! ### Options -/

/-- An option of the selector. -/
def OperationOption.text (o : OperationOption) : String :=
  codeElement 3 (codeBlock .curly 3
    (codeEntry 4 "name" (codeLiteral (escape o.displayName)) ++
      codeEntry 4 "value" (codeLiteral o.key) ++
      codeEntry 4 "description" (codeLiteral o.description) ++
      codeEntry 4 "action" (codeLiteral (escape o.action))))

/-- The selector of the operation. -/
def operationSelectorText (p : Properties) : String :=
  codeLine 1 ("// " ++ p.resource.displayName ++ " Operations") ++
  codeElement 1 (codeBlock .curly 1
    (codeEntry 2 "displayName" (codeLiteral "Operation") ++
      codeEntry 2 "name" (codeLiteral "operation") ++
      codeEntry 2 "type" (codeLiteral "options") ++
      codeEntry 2 "noDataExpression" "true" ++
      shownText p.resource.name "" ++
      codeEntry 2 "options"
        (codeBlock .square 2 (String.join (p.options.map OperationOption.text))) ++
      codeEntry 2 "default" (codeLiteral p.defaultOperation)))

/-- An option is filled in with its values. -/
theorem fill_operationOption (o : OperationOption) :
    fill operationOption (("option", o.toValue) :: scope) = .ok o.text := by
  simp [operationOption, OperationOption.text, OperationOption.toValue]

/-! ### Path fields -/

/-- The field of a path parameter of a resource. -/
def PathField.text (resource : String) (f : PathField) : String :=
  codeLine 1 ("// " ++ f.parameter.displayName ++ " parameter") ++
  codeElement 1 (codeBlock .curly 1
    (codeEntry 2 "displayName" (codeLiteral (escape f.parameter.displayName)) ++
      codeEntry 2 "name" (codeLiteral (escape f.parameter.name)) ++
      codeEntry 2 "type" (codeLiteral f.parameter.kind) ++
      codeEntry 2 "required" (if f.parameter.required then "true" else "false") ++
      shownText resource (shownOperationsText f.operations) ++
      codeEntry 2 "default" (codeLiteral "") ++
      codeEntry 2 "description" (codeLiteral (Typescript.description f.parameter.description))))

/-- A path field is filled in with its values. -/
theorem fill_pathField (f : PathField)
    (hname : (Ref.field "resource" "name").value scope = .ok (.str resource)) :
    fill pathField (("field", f.toValue) :: scope) = .ok (f.text resource) := by
  have hname' : (Ref.field "resource" "name").value (("field", f.toValue) :: scope) =
      .ok (.str resource) := by
    simpa using hname
  have hoperations : (Ref.field "field" "operations").value (("field", f.toValue) :: scope) =
      .ok (.list (f.operations.map .str)) := by
    simp [PathField.toValue]
  have hshown := fill_shownFor hname' (fill_shownOperations hoperations)
  simp only [PathField.toValue] at hshown ⊢
  simp [pathField, PathField.text, hshown]

/-! ### Additional fields -/

/-- One of the additional fields. -/
def AdditionalField.text (f : AdditionalField) : String :=
  codeElement 3 (codeBlock .curly 3
    (codeEntry 4 "displayName" (codeLiteral (escape f.displayName)) ++
      codeEntry 4 "name" (codeLiteral (escape f.name)) ++
      codeEntry 4 "type" (codeLiteral f.kind) ++
      (match f.minimum with
        | some n => codeEntry 4 "typeOptions"
            (codeBlock .curly 4 (codeEntry 5 "minValue" (toString n)))
        | none => "") ++
      codeEntry 4 "default" f.default ++
      codeEntry 4 "description" (codeLiteral f.description)))

/-- The collection of the additional fields. -/
def additionalFieldsFieldText (p : Properties) : String :=
  codeLine 1 "// Additional fields for list operations" ++
  codeElement 1 (codeBlock .curly 1
    (codeEntry 2 "displayName" (codeLiteral "Additional Fields") ++
      codeEntry 2 "name" (codeLiteral "additionalFields") ++
      codeEntry 2 "type" (codeLiteral "collection") ++
      codeEntry 2 "placeholder" (codeLiteral "Add Field") ++
      codeEntry 2 "default" (inBrackets .curly "") ++
      shownText p.resource.name (shownOperationsText p.listOperations) ++
      codeEntry 2 "options"
        (codeBlock .square 2 (String.join (p.additionalFields.map AdditionalField.text)))))

/-- An additional field is filled in with its values. -/
theorem fill_listField (f : AdditionalField) :
    fill listField (("field", f.toValue) :: scope) = .ok f.text := by
  have hminimum : (Test.notNull (.field "field" "min_value")).holds
      (("field", f.toValue) :: scope) = .ok f.minimum.isSome := by
    cases hn : f.minimum <;>
      simp [Test.holds, valueOf, AdditionalField.toValue, get?_object, hn, bind, pure, Except.pure]
  simp only [AdditionalField.toValue] at hminimum ⊢
  cases hn : f.minimum with
  | none =>
    simp only [hn] at hminimum
    simp [listField, AdditionalField.text, hn, hminimum]
  | some n =>
    have htext : (Value.int n).text = toString n := rfl
    simp only [hn] at hminimum
    simp [listField, AdditionalField.text, hn, hminimum, htext]

/-! ### Body -/

/-- The field of the body. -/
def bodyFieldText (p : Properties) : String :=
  codeLine 1 "// Request body for create/update operations" ++
  codeElement 1 (codeBlock .curly 1
    (codeEntry 2 "displayName" (codeLiteral "Body") ++
      codeEntry 2 "name" (codeLiteral "body") ++
      codeEntry 2 "type" (codeLiteral "json") ++
      codeEntry 2 "default" (codeLiteral "\x7b\x7d") ++
      shownText p.resource.name (shownOperationsText p.writeOperations) ++
      codeEntry 2 "description" (codeLiteral "Request body data as JSON")))

/-! ### Files -/

/-- The file of properties. -/
def Properties.layout (p : Properties) : String :=
  codeImport "import type" "INodeProperties" hostPackage ++ "\n" ++
    codeLine 0 ("export const " ++ p.resource.propertiesConstant ++ ": INodeProperties" ++
      inBrackets .square "" ++ " = " ++
      codeBlock .square 0
        (operationSelectorText p ++ String.join (p.pathFields.map (PathField.text p.resource.name)) ++
          (if p.listOperations.isEmpty then "" else additionalFieldsFieldText p) ++
          (if p.writeOperations.isEmpty then "" else bodyFieldText p)) ++
      ";")

/-- The name of the resource is in the scope. -/
theorem Properties.value_name (p : Properties) :
    (Ref.field "resource" "name").value p.scope = .ok (.str p.resource.name) := by
  simp [Properties.scope, Api.Resource.toValue]

/-- The selector is filled in with the options. -/
theorem fill_operationSelector (p : Properties) :
    fill operationSelector p.scope = .ok (operationSelectorText p) := by
  have hlabel : (Ref.field "resource" "display_name").value p.scope =
      .ok (.str p.resource.displayName) := by
    simp [Properties.scope, Api.Resource.toValue]
  have hdefault : (Ref.name "default_operation").value p.scope = .ok (.str p.defaultOperation) := by
    simp [Properties.scope]
  have hvalues : (Ref.name "operation_options").value p.scope =
      .ok (.list (p.options.map OperationOption.toValue)) := by
    simp [Properties.scope]
  have hoptions (ps : List Part) := fill_each ps OperationOption.text hvalues
    fun o _ => fill_operationOption o
  have hshown : fill (shownFor []) p.scope = .ok (shownText p.resource.name "") :=
    fill_shownFor p.value_name fill_nil
  simp [operationSelector, operationSelectorText, hlabel, hdefault, hoptions, hshown]

/-- The collection of the additional fields is filled in with them. -/
theorem fill_additionalFields (p : Properties) :
    fill Template.additionalFields p.scope = .ok (additionalFieldsFieldText p) := by
  have hoperations : (Ref.name "list_operation_names").value p.scope =
      .ok (.list (p.listOperations.map .str)) := by
    simp [Properties.scope]
  have hvalues : (Ref.name "list_fields").value p.scope =
      .ok (.list (p.additionalFields.map AdditionalField.toValue)) := by
    simp [Properties.scope]
  have hfields (ps : List Part) := fill_each ps AdditionalField.text hvalues
    fun f _ => fill_listField f
  have hshown := fill_shownFor p.value_name (fill_shownOperations hoperations)
  simp [Template.additionalFields, additionalFieldsFieldText, hfields, hshown]

/-- The field of the body is filled in. -/
theorem fill_bodyField (p : Properties) : fill bodyField p.scope = .ok (bodyFieldText p) := by
  have hoperations : (Ref.name "write_operation_names").value p.scope =
      .ok (.list (p.writeOperations.map .str)) := by
    simp [Properties.scope]
  have hshown := fill_shownFor p.value_name (fill_shownOperations hoperations)
  simp [bodyField, bodyFieldText, hshown]

/-- **Properties are rendered**, and their text is the layout of their fields. -/
theorem Properties.text_eq (p : Properties) : p.text = .ok p.layout := by
  have hconstant : (Ref.field "resource" "properties_export_name").value p.scope =
      .ok (.str p.resource.propertiesConstant) := by
    simp [Properties.scope, Api.Resource.toValue]
  have hvalues : (Ref.name "path_fields").value p.scope =
      .ok (.list (p.pathFields.map PathField.toValue)) := by
    simp [Properties.scope]
  have hfields (ps : List Part) := fill_each ps (PathField.text p.resource.name) hvalues
    fun f _ => fill_pathField f p.value_name
  have hlist : (Ref.name "list_operation_names").value p.scope =
      .ok (.list (p.listOperations.map .str)) := by
    simp [Properties.scope]
  have hwrite : (Ref.name "write_operation_names").value p.scope =
      .ok (.list (p.writeOperations.map .str)) := by
    simp [Properties.scope]
  cases hl : p.listOperations <;> cases hw : p.writeOperations <;>
    simp [Properties.text, properties, Properties.layout, hconstant, hfields,
      fill_operationSelector, fill_additionalFields, fill_bodyField, hlist, hwrite, hl, hw,
      Value.isTruthy]

end ApiNodes.Artifact
