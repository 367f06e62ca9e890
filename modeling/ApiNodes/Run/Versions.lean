import ApiNodes.Document.Json.Writer
import ApiNodes.Run.Access

namespace ApiNodes.Run

open Files (Path)

/-!
# Versions

One document records the version of the API that each component was last generated from.
An update replaces the record of one component and stamps the document with the source of
all.
-/

/-- The entries of a document. -/
abbrev Entries := List (Value × Value)

/-! ### Documents -/

/-- The document that the bytes of a file hold, if they hold a mapping.  Bytes that are no
    document are passed over, but not a document that is nested too deeply. -/
def versionsOf (data : ByteArray) : Except LoadError (Option Entries) :=
  match (fileText? data).map Json.read with
  | some (.ok v) => .ok v.entries?
  | some (.error e) => if e.fault = .tooDeep then .error (.json e) else .ok none
  | none => .ok none

/-- Where the API was taken from. -/
structure ApiSource where
  url : String
  version : String
  deriving DecidableEq, Repr

/-- The value of a source. -/
def ApiSource.toValue (s : ApiSource) : Value :=
  .object [("url", .str s.url), ("version", .str s.version)]

/-- A document without components. -/
def freshVersions (source : ApiSource) (stamp : String) : Entries :=
  [(.str "lastUpdated", .str stamp), (.str "apiSource", source.toValue),
   (.str "components", .map [])]

/-- The record of a component: what is known of it, and when it was generated. -/
def componentRecord (metadata : Entries) (stamp : String) : Value :=
  .map (Value.putKey (.str "generatedAt") (.str stamp) metadata)

/-- The components that a document records. -/
def componentsOf (versions : Entries) : Entries :=
  ((Value.atKey? "components" versions).bind Value.entries?).getD []

/-- A document with a new source and a new record of one component. -/
def withComponent (versions : Entries) (source : ApiSource) (updated : String)
    (component : String) (content : Value) : Entries :=
  let stamped := Value.putKey (.str "lastUpdated") (.str updated)
    (Value.putKey (.str "apiSource") source.toValue versions)
  Value.putKey (.str "components")
    (.map (Value.putKey (.str component) content (componentsOf versions))) stamped

/-- The text of a document. -/
def versionsText (versions : Entries) : Except Json.WriteFault String :=
  (Json.document .refuse (.map versions)).map (· ++ "\n")

/-! ### Runs -/

/-- The document at a path, if there is one that can be read. -/
def readVersions (p : Path) : Run (Option Entries) := do
  if p.hasNull then return none
  match ← attempt (fileContent p) with
  | .error _ => return none
  | .ok data =>
    match versionsOf data with
    | .ok versions => return versions
    | .error e => throw (.load e)

/-- The stamp of the moment. -/
def stampNow : Run String := do return stamp (← tick)

/-- The document at a path, or one without components. -/
def versionsOrFresh (p : Path) (source : ApiSource) : Run Entries := do
  match ← readVersions p with
  | some versions => return versions
  | none => return freshVersions source (← stampNow)

/-- Record that a component was generated. -/
def recordComponent (p : Path) (component : String) (source : ApiSource) (metadata : Entries) :
    Run Entries := do
  inform .versions ("Updating version info for " ++ component ++ "...")
  let before ← versionsOrFresh p source
  let updated ← stampNow
  let generated ← stampNow
  let versions := withComponent before source updated component (componentRecord metadata generated)
  makeFolders p.parent
  match versionsText versions with
  | .error fault => throw (.unwritable fault)
  | .ok content =>
    writeText p content
    inform .versions
      ("Updated version info: " ++ component ++ " generated from API " ++ source.version)
    return versions

end ApiNodes.Run
