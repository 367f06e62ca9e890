import ApiNodes.Artifact.Handler
import ApiNodes.Proofs.Template.Layout

namespace ApiNodes.Artifact

open Template
open Typescript (PathVariable escape)

/-!
# Layout of handlers

The text of a handler, given by its methods: the dispatch has one case for each method, which
calls it by its name, and each method stands as a private one after the dispatch.

* `HandlerMethod.caseText`, `HandlerMethod.text` — what stands in the file for a method;
* `Handler.layout` — the file;
* `Handler.text_eq` — every handler is rendered, as its layout.
-/

variable {scope : Scope}

/-! ### Dispatch -/

/-- The case of a method in the dispatch. -/
def HandlerMethod.caseText (m : HandlerMethod) : String :=
  codeLine 3 ("case " ++ codeLiteral m.operation ++ ":") ++
    codeLine 4 ("return this." ++ m.name ++ inBrackets .round callArguments ++ ";")

/-- The dispatch over methods. -/
def dispatchText (methods : List HandlerMethod) : String :=
  codeLine 1 ("async executeOperation" ++
    codeBlock .round 1
      (codeLine 2 "executeFunctions: IExecuteFunctions," ++ codeLine 2 "operation: string," ++
        codeLine 2 "credentials: INalpeironCredentials," ++ codeLine 2 "accessToken: string," ++
        codeLine 2 "itemIndex: number,") ++
    ": Promise<any> " ++
    codeBlock .curly 1
      (codeLine 2 ("switch " ++ inBrackets .round "operation" ++ " " ++
        codeBlock .curly 2
          (String.join (methods.map HandlerMethod.caseText) ++ codeLine 3 "default:" ++
            codeLine 4 ("throw new UnknownOperationError" ++
              inBrackets .round ("operation, executeFunctions.getNode" ++ inBrackets .round "") ++
              ";")))))

/-- A case is filled in with its method. -/
theorem fill_dispatchCase (m : HandlerMethod) :
    fill dispatchCase (("method", m.toValue) :: scope) = .ok m.caseText := by
  simp [dispatchCase, HandlerMethod.caseText, HandlerMethod.toValue]

/-- The dispatch is filled in with the methods. -/
theorem fill_dispatch {methods : List HandlerMethod}
    (h : (Ref.name "methods").value scope = .ok (.list (methods.map HandlerMethod.toValue))) :
    fill dispatch scope = .ok (dispatchText methods) := by
  have hcases (ps : List Part) : fill (.each "method" (.name "methods") dispatchCase :: ps) scope =
      (fill ps scope).map (String.join (methods.map HandlerMethod.caseText) ++ ·) :=
    fill_each ps HandlerMethod.caseText h fun m _ => fill_dispatchCase m
  simp [dispatch, dispatchText, hcases]

/-! ### Methods -/

/-- The constant that holds the value of a path parameter. -/
def pathConstant (v : PathVariable) : String :=
  codeLine 2 ("const " ++ v.ident ++ " = executeFunctions.getNodeParameter" ++
    inBrackets .round (codeLiteral (escape v.name) ++ ", itemIndex") ++ " as string;")

/-- The constants of the path, and an empty line if there are any. -/
def pathConstantsText (found : List PathVariable) : String :=
  String.join (found.map pathConstant) ++ if found.isEmpty then "" else "\n"

/-- The constant of the additional fields. -/
def additionalFieldsText : String :=
  codeLine 2 ("const additionalFields = executeFunctions.getNodeParameter" ++
    codeBlock .round 2
      (codeLine 3 (codeLiteral "additionalFields" ++ ",") ++ codeLine 3 "itemIndex," ++
        codeLine 3 (inBrackets .curly "" ++ ",")) ++
    " as IDataObject;") ++
  "\n"

/-- The constants of the body. -/
def bodyText : String :=
  codeLine 2 ("const rawBody = executeFunctions.getNodeParameter" ++
    inBrackets .round (codeLiteral "body" ++ ", itemIndex, " ++ codeLiteral "\x7b\x7d") ++
    " as string | IDataObject;") ++
  codeLine 2 ("const body = typeof rawBody === " ++ codeLiteral "string" ++
    " ? jsonParse<IDataObject>" ++ inBrackets .round "rawBody" ++ " : rawBody;") ++
  "\n"

/-- The request of a method. -/
def HandlerMethod.requestText (m : HandlerMethod) : String :=
  codeLine 2 ("return await makeAuthenticatedRequest" ++
    codeBlock .round 2
      (codeLine 3 (codeLiteral m.httpMethod ++ ",") ++
        codeLine 3 (inQuotes '\x60' m.requestPath ++ ",") ++ codeLine 3 "accessToken," ++
        codeLine 3 "credentials," ++ codeLine 3 "executeFunctions.helpers," ++
        codeLine 3 ((if m.hasBody then "body" else "undefined") ++ ",") ++
        if m.hasAdditionalFields then codeLine 3 "additionalFields," else "") ++
    ";")

/-- A method of its own. -/
def HandlerMethod.text (m : HandlerMethod) : String :=
  "\n" ++
  codeLine 1 ("private async " ++ m.name ++
    codeBlock .round 1
      (codeLine 2 "executeFunctions: IExecuteFunctions," ++
        codeLine 2 "credentials: INalpeironCredentials," ++ codeLine 2 "accessToken: string," ++
        codeLine 2 "itemIndex: number,") ++
    ": Promise<any> " ++
    codeBlock .curly 1
      (pathConstantsText m.pathVariables ++
        (if m.hasAdditionalFields then additionalFieldsText else "") ++
        (if m.hasBody then bodyText else "") ++ m.requestText))

/-- The constants of the path are filled in with those of the method. -/
theorem fill_pathConstants (m : HandlerMethod) :
    fill pathConstants (("method", m.toValue) :: scope) =
      .ok (pathConstantsText m.pathVariables) := by
  have hvariables : (Ref.field "method" "path_params").value (("method", m.toValue) :: scope) =
      .ok (.list (m.pathVariables.map variableValue)) := by
    simp [HandlerMethod.toValue]
  rw [pathConstants, fill_each _ pathConstant hvariables, fill_when, holds_truthy, hvariables,
    pathConstantsText]
  · cases m.pathVariables <;> simp [Value.isTruthy]
  · intro v _
    simp [pathConstant, variableValue]

/-- A method is filled in with its values. -/
theorem fill_operationMethod (m : HandlerMethod) :
    fill operationMethod (("method", m.toValue) :: scope) = .ok m.text := by
  have hadditional : fill additionalFieldsConstant (("method", m.toValue) :: scope) =
      .ok additionalFieldsText := by
    simp [additionalFieldsConstant, additionalFieldsText]
  have hbody : fill bodyConstants (("method", m.toValue) :: scope) = .ok bodyText := by
    simp [bodyConstants, bodyText]
  have hrequest : fill request (("method", m.toValue) :: scope) = .ok m.requestText := by
    cases hb : m.hasBody <;> cases ha : m.hasAdditionalFields <;>
      simp [request, HandlerMethod.requestText, HandlerMethod.toValue, hb, ha, Value.isTruthy]
  have hname : memberOf m.toValue "name" = .ok (.str m.name) := by
    simp [HandlerMethod.toValue]
  have htests : memberOf m.toValue "additional_fields" = .ok (.bool m.hasAdditionalFields) ∧
      memberOf m.toValue "has_body" = .ok (.bool m.hasBody) := by
    simp [HandlerMethod.toValue]
  cases hb : m.hasBody <;> cases ha : m.hasAdditionalFields <;>
    simp [operationMethod, HandlerMethod.text, fill_pathConstants, hadditional, hbody, hrequest,
      hname, htests, hb, ha, Value.isTruthy]

/-! ### Files -/

/-- The file of a handler. -/
def Handler.layout (h : Handler) : String :=
  codeImport "import type" (String.intercalate ", " h.typeImports) hostPackage ++
    (if h.runtimeImports.isEmpty then ""
      else codeImport "import" (String.intercalate ", " h.runtimeImports) hostPackage) ++
    codeImport "import" "UnknownOperationError, type ResourceHandler"
      "../../../shared/resource-handler" ++
    codeImport "import" "makeAuthenticatedRequest, type INalpeironCredentials" "../../utils" ++
    "\n" ++
    codeComment [escape h.resource.displayName ++ " resource handler", originLine] ++
    codeLine 0 ("export class " ++ h.resource.handlerClass ++ " implements ResourceHandler " ++
      codeBlock .curly 0 (dispatchText h.methods ++ String.join (h.methods.map HandlerMethod.text)))

/-- **A handler is rendered**, and its text is the layout of its methods. -/
theorem Handler.text_eq (h : Handler) : h.text = .ok h.layout := by
  have htypes : (Ref.name "type_imports").value h.scope = .ok (.list (h.typeImports.map .str)) := by
    simp [Handler.scope]
  have hruntime : (Ref.name "runtime_imports").value h.scope =
      .ok (.list (h.runtimeImports.map .str)) := by
    simp [Handler.scope]
  have hmethods : (Ref.name "methods").value h.scope =
      .ok (.list (h.methods.map HandlerMethod.toValue)) := by
    simp [Handler.scope]
  have hresource : (Ref.field "resource" "display_name").value h.scope =
        .ok (.str h.resource.displayName) ∧
      (Ref.field "resource" "handler_class_name").value h.scope =
        .ok (.str h.resource.handlerClass) := by
    simp [Handler.scope, Api.Resource.toValue]
  have hcomment : fill (comment
      [[.hole (.escaped (.field "resource" "display_name")), .text " resource handler"],
        [.text originLine]]) h.scope =
      .ok (codeComment [escape h.resource.displayName ++ " resource handler", originLine]) :=
    fill_comment (.cons (by simp [hresource]) (.cons (by simp) .nil))
  have hmethodsText (ps : List Part) := fill_each ps HandlerMethod.text hmethods
    fun m _ => fill_operationMethod m
  cases hnames : h.runtimeImports <;>
    simp [Handler.text, handler, Handler.layout, fill_listed htypes, fill_listed hruntime, hruntime,
      hnames, Value.isTruthy, hcomment, hresource, fill_dispatch hmethods, hmethodsText]

end ApiNodes.Artifact
