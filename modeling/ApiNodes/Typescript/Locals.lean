import ApiNodes.Api.Path
import ApiNodes.Document.Shown
import ApiNodes.Name.Operation
import ApiNodes.Typescript.Literal

namespace ApiNodes.Typescript

/-!
# Local constants and request paths

Every placeholder of a path is read into a constant of its own.  The path of a request is
the body of a template literal in which the constants stand for the placeholders.
-/

/-- The names that a handler method declares itself. -/
def handlerLocals : List String :=
  ["executeFunctions", "credentials", "accessToken", "itemIndex", "additionalFields", "rawBody",
   "body"]

/-- The words that no constant may be named. -/
def reservedWords : List String :=
  ["break", "case", "catch", "class", "const", "continue", "debugger", "default", "delete",
   "do", "else", "enum", "export", "extends", "false", "finally", "for", "function", "if",
   "import", "in", "instanceof", "new", "null", "return", "super", "switch", "this", "throw",
   "true", "try", "typeof", "var", "void", "while", "with", "let", "static", "yield",
   "await", "implements", "interface", "package", "private", "protected", "public"]

/-- The identifier of a placeholder name: the camel case of its words, without what an
    identifier cannot hold or cannot begin with, or `value` if nothing is left. -/
def identifier (name : String) : String :=
  let kept := name.toList.filter fun c => Name.isWordChar c || c == '-' || Text.isBlank c
  let word := Name.wordChars (Name.camelChars kept)
  match word.dropWhile fun c => !(Name.isLetter c || c == '_') with
  | [] => "value"
  | s => .ofList s

/-- The name wanted for a constant: the identifier, with a suffix if it means something
    else. -/
def wantedLocal (name : String) : String :=
  let i := identifier name
  if i ∈ reservedWords ∨ i ∈ handlerLocals then i ++ "Param" else i

/-- A placeholder name and the constant that holds its value. -/
structure PathVariable where
  name : String
  ident : String
  deriving DecidableEq, Repr

/-- The constants of placeholder names, each different from the others and from the names
    of the handler method. -/
def pathVariables (names : List String) : List PathVariable :=
  List.zipWith PathVariable.mk names (Name.uniqueAll handlerLocals (names.map wantedLocal))

/-- The variables that values give, each by its name and its variable; nothing if one of the
    two is missing.  An empty variable stands for none, and a name that is no text for no
    placeholder. -/
def readVariables? : List Value → Option (List PathVariable)
  | [] => some []
  | v :: vs => do
    let name ← v.get? "name"
    let ident ← v.get? "var"
    let rest ← readVariables? vs
    match name with
    | .str n => return ⟨n, if ident.isTruthy then ident.text else ""⟩ :: rest
    | _ => return rest

/-! ### Request paths -/

/-- The root of the service without its final slash. -/
def rootPrefix : String := "/api/v1"

/-- The path with the root in front of it, unless it has it already. -/
def absolutePath (path : String) : String :=
  if Text.startsWith rootPrefix path.toList then path else rootPrefix ++ path

/-- The variable of a placeholder: that of the first pair with its name. -/
def variableOf? (found : List PathVariable) (name : List Char) : Option String :=
  ((found.find? fun v => v.name.toList == name).map (·.ident)).filter (· != "")

/-- A part of a request path.  A placeholder without a variable stays as it is. -/
def pathPart (found : List PathVariable) (p : Api.PathPart) : List Char :=
  match p.name?.bind (variableOf? found) with
  | some v => '$' :: '{' :: v.toList ++ ['}']
  | none => p.text

/-- The body of the template literal for a path. -/
def requestPath (path : String) (found : List PathVariable) : String :=
  .ofList ((Api.parts (escapeChars (absolutePath path).toList)).flatMap (pathPart found))

end ApiNodes.Typescript
