import ApiNodes.Template.Code

namespace ApiNodes.Template

/-!
# The template of a handler

A handler class dispatches on the operation key and has one private method for each
operation: it reads the path constants, the additional fields and the body where there are
any, and sends the request.
-/

/-- The arguments that the dispatch passes to a method. -/
def callArguments : String := "executeFunctions, credentials, accessToken, itemIndex"

/-- One case of the dispatch. -/
def dispatchCase : List Part :=
  line 3 [.text "case ", filled (.plain (.field "method" "operation")), .text ":"] ++
  line 4 [.text "return this.", .hole (.plain (.field "method" "name")),
    round [.text callArguments], .text ";"]

/-- The method that dispatches. -/
def dispatch : List Part :=
  line 1 [.text "async executeOperation",
    plainBlock .round 1
      ["executeFunctions: IExecuteFunctions,", "operation: string,",
       "credentials: INalpeironCredentials,", "accessToken: string,", "itemIndex: number,"],
    .text ": Promise<any> ",
    block .curly 1
      [line 2 [.text "switch ", round [.text "operation"], .text " ",
        block .curly 2
          [[.each "method" (.name "methods") dispatchCase],
           plainLine 3 "default:",
           line 4 [.text "throw new UnknownOperationError",
             round [.text "operation, executeFunctions.getNode", round []], .text ";"]]]]]

/-- The constants of the path. -/
def pathConstants : List Part :=
  [.each "param" (.field "method" "path_params")
    (line 2 [.text "const ", .hole (.plain (.field "param" "var")),
      .text " = executeFunctions.getNodeParameter",
      round [filled (.escaped (.field "param" "name")), .text ", itemIndex"],
      .text " as string;"]),
   .when (.truthy (.field "method" "path_params")) [.text "\n"]]

/-- The constant of the additional fields. -/
def additionalFieldsConstant : List Part :=
  line 2 [.text "const additionalFields = executeFunctions.getNodeParameter",
    block .round 2
      [line 3 [literal "additionalFields", .text ","], plainLine 3 "itemIndex,",
       line 3 [curly [], .text ","]],
    .text " as IDataObject;"] ++
  [.text "\n"]

/-- The constants of the body. -/
def bodyConstants : List Part :=
  line 2 [.text "const rawBody = executeFunctions.getNodeParameter",
    round [literal "body", .text ", itemIndex, ", literal "\x7b\x7d"],
    .text " as string | IDataObject;"] ++
  line 2 [.text "const body = typeof rawBody === ", literal "string",
    .text " ? jsonParse<IDataObject>", round [.text "rawBody"], .text " : rawBody;"] ++
  [.text "\n"]

/-- The request. -/
def request : List Part :=
  line 2 [.text "return await makeAuthenticatedRequest",
    block .round 2
      [line 3 [filled (.plain (.field "method" "http_method")), .text ","],
       line 3 [.literal '\x60' [.hole (.plain (.field "method" "api_path"))], .text ","],
       plainLine 3 "accessToken,", plainLine 3 "credentials,",
       plainLine 3 "executeFunctions.helpers,",
       line 3 [.hole (.choice (.field "method" "has_body") "body" "undefined"), .text ","],
       [.when (.truthy (.field "method" "additional_fields"))
         (plainLine 3 "additionalFields,")]],
    .text ";"]

/-- The method of an operation. -/
def operationMethod : List Part :=
  .text "\n" ::
  line 1 [.text "private async ", .hole (.plain (.field "method" "name")),
    plainBlock .round 1
      ["executeFunctions: IExecuteFunctions,", "credentials: INalpeironCredentials,",
       "accessToken: string,", "itemIndex: number,"],
    .text ": Promise<any> ",
    block .curly 1
      [pathConstants,
       [.when (.truthy (.field "method" "additional_fields")) additionalFieldsConstant],
       [.when (.truthy (.field "method" "has_body")) bodyConstants],
       request]]

/-- The file of a handler. -/
def handler : List Part :=
  importOf "import type" [.hole (.listed (.name "type_imports"))] [.text hostPackage] ++
  [.when (.truthy (.name "runtime_imports"))
    (importOf "import" [.hole (.listed (.name "runtime_imports"))] [.text hostPackage])] ++
  plainImport "import" "UnknownOperationError, type ResourceHandler"
    "../../../shared/resource-handler" ++
  plainImport "import" "makeAuthenticatedRequest, type INalpeironCredentials" "../../utils" ++
  [.text "\n"] ++
  comment
    [[.hole (.escaped (.field "resource" "display_name")), .text " resource handler"],
     [.text originLine]] ++
  line 0 [.text "export class ", .hole (.plain (.field "resource" "handler_class_name")),
    .text " implements ResourceHandler ",
    block .curly 0 [dispatch, [.each "method" (.name "methods") operationMethod]]]

end ApiNodes.Template
