import ApiNodes.Document.Json.Reader
import ApiNodes.Document.Yaml.Reader

namespace ApiNodes

/-!
# Document files

A file is read as UTF-8 text in which every line break counts as a line feed.  The suffix
of its name says which format it has: JSON after `.json`, YAML after anything else.
-/

/-- Why a file is refused. -/
inductive LoadError
  | notUnicode
  | json (e : Json.ReadError)
  | yaml (fault : Yaml.Fault)
  deriving DecidableEq, Repr

/-- The suffix of a file name: the last period, unless it is the first or the last
    character, and what follows it. -/
def suffixChars (name : List Char) : List Char :=
  let tail := name.reverse.takeWhile (· != '.')
  if tail.isEmpty || name.length ≤ tail.length + 1 then [] else '.' :: tail.reverse

/-- The file is named as JSON. -/
def isJsonName (name : String) : Bool := Text.lowerChars (suffixChars name.toList) == ".json".toList

/-- Every line break as a line feed. -/
def lineFeeds : List Char → List Char
  | '\r' :: '\n' :: r => '\n' :: lineFeeds r
  | '\r' :: r => '\n' :: lineFeeds r
  | c :: r => c :: lineFeeds r
  | [] => []

/-- The text of a file. -/
def fileText? (data : ByteArray) : Option String :=
  (String.fromUTF8? data).map fun s => .ofList (lineFeeds s.toList)

/-- The document in a file. -/
def readDocument (name : String) (data : ByteArray) : Except LoadError Value :=
  match fileText? data with
  | none => .error .notUnicode
  | some text =>
    if isJsonName name then (Json.read text).mapError .json
    else (Yaml.read text).mapError .yaml

end ApiNodes
