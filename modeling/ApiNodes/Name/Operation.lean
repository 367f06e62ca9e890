import ApiNodes.Name.Resource
import ApiNodes.Name.Unique

namespace ApiNodes.Name

/-!
# Names of operations

The five basic operations take their names from a verb and the resource; every other
operation is named by its key.
-/

/-- The basic operations and the verbs of their labels. -/
def verbs : List (String × String) :=
  [("get", "Get"), ("list", "List"), ("create", "Create"), ("update", "Update"),
   ("delete", "Delete")]

/-- The handler method of an operation key.  Listing names the resource in the plural. -/
def method (key resource : String) : String :=
  if key = "list" then "list" ++ pascal (plural resource)
  else if (verbs.lookup key).isSome then key ++ pascal resource
  else key

/-- The label of a key that begins with a basic operation and goes on. -/
def compoundLabel? (key resourceLabel : String) : Option String :=
  verbs.findSome? fun (base, verb) =>
    match Text.after? base.toList key.toList with
    | none | some [] => none
    | some rest => some (verb ++ " " ++ resourceLabel ++ " " ++ label (.ofList rest))

/-- The label of an operation on a resource. -/
def operationLabel (key resourceLabel : String) : String :=
  match verbs.lookup key with
  | some verb =>
    verb ++ " " ++ (if key = "list" then plural resourceLabel else resourceLabel)
  | none => (compoundLabel? key resourceLabel).getD (label key)

/-- The action of an operation: its label as a sentence. -/
def operationAction (key resourceLabel : String) : String :=
  sentence (operationLabel key resourceLabel)

/-! ### Identifiers -/

/-- The characters that may stand in an identifier. -/
def wordChars (s : List Char) : List Char := s.filter isWordChar

/-- A method name: the word characters of the base from its first letter on, or
    `operation` if there is no letter. -/
def methodIdentifier (base : String) : String :=
  match (wordChars base.toList).dropWhile fun c => !isLetter c with
  | [] => "operation"
  | s => .ofList s

end ApiNodes.Name
