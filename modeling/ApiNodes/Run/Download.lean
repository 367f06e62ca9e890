import ApiNodes.Api.Event
import ApiNodes.Document.Json.Writer
import ApiNodes.Run.Access
import ApiNodes.Text.Encoding

namespace ApiNodes.Run

open Files (Path)

/-!
# Documents of a run

A run takes its document from a file or from the network, and keeps a scratch copy of it
until it is over.
-/

/-- The address of the vendor's document. -/
def defaultAddress : String := "https://api.nalpeiron.io/openapi/v1/2024-01-01/openapi.json"

/-- A document that was loaded: where it came from, its version, and the number of its
    scratch copy. -/
structure Loaded where
  document : Value
  version : String
  scratch : Nat
  source : String
  deriving Repr

/-! ### Scratch copies -/

/-- Keep a scratch copy. -/
def keepScratch (content : String) : Run Nat := do
  let w ← get
  if w.scratchPath ∈ w.denied.write then throw (.file ⟨.denied, w.scratchPath⟩)
  set { w with scratchSteps := .keep content :: w.scratchSteps }
  return w.scratchSteps.length

/-- What the log says when a file is removed, or cannot be. -/
def recordCleanup (path : String) : Option Files.FileError → Run Unit
  | none => inform .download ("Cleaned up temporary file: " ++ path)
  | some e =>
    record .warning .download ("Failed to cleanup temporary file " ++ path ++ ": " ++ e.message)

/-- Remove a scratch copy.  A copy that cannot be removed stays. -/
def dropScratch (number : Nat) : Run Unit := do
  let w ← get
  if w.scratchPath ∈ w.denied.remove then
    recordCleanup w.scratchPath (some ⟨.denied, w.scratchPath⟩)
  else
    set { w with scratchSteps := .drop number :: w.scratchSteps }
    recordCleanup w.scratchPath none

/-- Remove a file that is not needed any more. -/
def cleanup (p : Path) : Run Unit := do
  match ← attempt (dropFile p) with
  | .ok () => recordCleanup p.text none
  | .error e => recordCleanup p.text (some e)

/-! ### Loading -/

/-- The document with its scratch copy. -/
def keep (document : Value) (source : String) : Run Loaded := do
  match Api.version? document, Json.document .asText document with
  | none, _ => throw (.unwritable .longInteger)
  | _, .error fault => throw (.unwritable fault)
  | some version, .ok content =>
    let scratch ← keepScratch content
    inform .download ("Using OpenAPI spec version: " ++ version)
    record .debug .download ("Temporary file: " ++ (← get).scratchPath)
    return { document, version, scratch, source }

/-- The text of an answer.  A byte-order mark in front of it is dropped; without one, the
    first bytes tell how the text is encoded. -/
def replyText (body : String) : String :=
  match body.toList with
  | c :: r =>
    if c.toNat = 0xfeff then .ofList r
    else
      let data := body.toUTF8.toList
      ((Text.encodingOf? data).bind (·.decode? data)).getD body
  | [] => body

/-- A status of failure. -/
def isFailure (status : Int) : Bool := decide (400 ≤ status ∧ status < 600)

/-- The document in an answer. -/
def replyDocument : Reply → Except RunError Value
  | .failed message => .error (.download none message)
  | .answered status reason body =>
    if isFailure status then .error (.download (some status) (reason.getD ""))
    else
      match Json.read (replyText body) with
      | .ok document => .ok document
      | .error e =>
        if e.fault = .tooDeep then .error (.load (.json e))
        else .error (.download (some status) ("response is not JSON: " ++ e.message))

/-- The answer to a request. -/
def ask (address : String) (timeout : Value) : Run Reply := do
  let w ← get
  set { w with requests := w.requests ++ [(address, timeout)] }
  return (lookup? address w.replies).getD (.failed ("unreachable: " ++ address))

/-- The address to load from; the vendor's if none is given. -/
def addressOf (source : Option String) : String :=
  match source with
  | none | some "" => defaultAddress
  | some s => s

/-- Load a document from the network. -/
def download (source : Option String) (timeout : Value) : Run Loaded := do
  let address := addressOf source
  inform .download ("Downloading OpenAPI spec from: " ++ address)
  match replyDocument (← ask address timeout) with
  | .ok document => keep document address
  | .error e => throw e

/-- A source is an address. -/
def isAddress (source : String) : Bool :=
  Text.startsWith "http://" source.toList || Text.startsWith "https://" source.toList

/-- Load a document from a file. -/
def loadFile (p : Path) : Run Loaded := do
  inform .download ("Reading OpenAPI spec from: " ++ p.text)
  match readDocument p.name (← fileContent p) with
  | .ok document => keep document p.text
  | .error e => throw (.load e)

/-- Load a document: from a file if the source is the path of one, else from the network. -/
def load (source : Option String) (timeout : Value) : Run Loaded := do
  match source with
  | none => download none timeout
  | some s =>
    let p := Path.ofString s
    if s != "" && !isAddress s && (← isFile p) then loadFile p
    else download source timeout

end ApiNodes.Run
