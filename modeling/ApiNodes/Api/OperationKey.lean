import ApiNodes.Api.Path
import ApiNodes.Name.Operation

namespace ApiNodes.Api

/-!
# Operation keys

The key of an operation is read off the shape of its path and its method.  On the
collection itself and on one of its members the method names the operation; below a member
the further segments do, behind a verb for the method.  The key is then reduced to an
identifier.
-/

/-- The key of an operation on a path that has nothing but placeholders after its first
    segment. -/
def standardKey (method : String) (onMember : Bool) : String :=
  if method = "get" then (if onMember then "get" else "list")
  else if method = "post" then "create"
  else if method = "put" ∨ method = "patch" then "update"
  else method

/-- Hyphens count as underscores. -/
def underscored (s : List Char) : List Char := s.map fun c => if c = '-' then '_' else c

/-- The Pascal case of the plain segments after the first. -/
def keySuffix (segments : List String) : String :=
  String.join (((segments.drop 1).filter (!isHole ·)).map fun s =>
    .ofList (Name.pascalChars (underscored s.toList)))

/-- The verb before the suffix of a key. -/
def suffixVerb (method : String) (endsInHole : Bool) : String :=
  if method = "get" then (if endsInHole then "get" else "list")
  else if method = "post" then "create"
  else if method = "put" ∨ method = "patch" then "update"
  else method

/-- The key of an operation, before it is reduced to an identifier. -/
def inferKey (segments : List String) (method : String) : String :=
  let method := Text.lower method
  match segments with
  | [_] => if method = "get" then "list" else method
  | _ =>
    if segments.length = 2 ∧ (segments.drop 1).any isHole then method
    else
      let suffix := keySuffix segments
      if suffix = "" then standardKey method (1 < segments.length)
      else suffixVerb method (segments.getLast?.any isHole) ++ suffix

/-- Drop every pair of braces with what is between them. -/
def dropHoles (s : List Char) : List Char :=
  (parts s).flatMap fun
    | .plain c => [c]
    | .hole _ => []

/-- A small letter after an underscore becomes a capital, and the underscore goes. -/
def joinUnderscores : List Char → List Char
  | [] => []
  | [c] => [c]
  | c :: d :: r =>
    if c = '_' ∧ Name.isSmall d then d.toUpper :: joinUnderscores r
    else c :: joinUnderscores (d :: r)

/-- The identifier that a key is reduced to: word characters from the first letter on. -/
def identifierChars (s : List Char) : List Char :=
  joinUnderscores ((Name.wordChars (dropHoles s)).dropWhile fun c => !Name.isLetter c)

/-- The identifier of a key, or `operation` when nothing of it is left. -/
def sanitizeKey (key : String) : String :=
  match identifierChars key.toList with
  | [] => "operation"
  | s => .ofList s

end ApiNodes.Api
