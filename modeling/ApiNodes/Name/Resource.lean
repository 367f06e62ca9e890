import ApiNodes.Name.Words

namespace ApiNodes.Name

/-!
# Names of resources

A resource takes its name from the first segment of its paths: the singular of the last
word, in camel case.  The names of its handler class, its properties constant and its files
follow from that name.
-/

/-- Plurals whose singular is not the plural without its final letter. -/
def irregularPlurals : List (String × String) :=
  [("identities", "identity"), ("companies", "company"), ("categories", "category"),
   ("properties", "property"), ("activities", "activity"), ("authorities", "authority"),
   ("entities", "entity")]

/-- The singular of a word. -/
def singularChars (w : List Char) : List Char :=
  match irregularPlurals.find? fun (plural, _) => plural.toList == w with
  | some (_, singular) => singular.toList
  | none => Text.dropTail ['s'] w

/-- Replace the last piece. -/
def mapLast (f : List Char → List Char) : List (List Char) → List (List Char)
  | [] => []
  | [p] => [f p]
  | p :: q :: r => p :: mapLast f (q :: r)

/-- The name of a resource: a final `-api` is dropped, the last hyphenated piece is put in
    the singular, and the whole in camel case. -/
def resourceChars (segment : List Char) : List Char :=
  let pieces := Text.cut '-' (Text.dropTail "-api".toList segment)
  camelChars (Text.join ['-'] (mapLast singularChars pieces))

/-- The name of the resource that a path segment stands for. -/
def resource (segment : String) : String := .ofList (resourceChars segment.toList)

/-- The class that handles a resource. -/
def handlerClass (resource : String) : String := pascal resource ++ "ResourceHandler"

/-- The constant that holds the properties of a resource. -/
def propertiesConstant (resource : String) : String := resource ++ "Properties"

/-- The plural of a word. -/
def pluralChars (w : List Char) : List Char :=
  match w.reverse with
  | 'y' :: r => r.reverse ++ "ies".toList
  | 's' :: _ | 'x' :: _ | 'z' :: _ => w ++ "es".toList
  | 'h' :: 's' :: _ | 'h' :: 'c' :: _ => w ++ "es".toList
  | _ => w ++ ['s']

/-- The plural of a word. -/
def plural (w : String) : String := .ofList (pluralChars w.toList)

end ApiNodes.Name
