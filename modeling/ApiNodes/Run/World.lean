import ApiNodes.Api.Entry
import ApiNodes.Calendar
import ApiNodes.Document.File
import ApiNodes.Document.Json.Writer
import ApiNodes.Files.Tree
import ApiNodes.Template.Basic
import ApiNodes.Typescript.Review

namespace ApiNodes

namespace Run

/-!
# The world of a run

What a run reads and changes: a file tree, the scratch copies of documents, a clock, the
answers of the network, and the log.  A run that fails leaves the world as it was when it
failed.
-/

/-! ### Log -/

/-- How much a record of the log matters. -/
inductive Level
  | debug
  | info
  | warning
  deriving DecidableEq, Repr

/-- The name of a level. -/
def Level.name : Level → String
  | debug => "DEBUG"
  | info => "INFO"
  | warning => "WARNING"

/-- The part of the program that writes to the log. -/
inductive Origin
  | download
  | extraction
  | versions
  | generation
  | registry
  | webhooks
  | files
  deriving DecidableEq, Repr

/-- The name of a part of the program. -/
def Origin.name : Origin → String
  | download => "zentitle_codegen.downloader"
  | extraction => "zentitle_codegen.parser.openapi"
  | versions => "zentitle_codegen.versions"
  | generation => "zentitle_codegen.generator.orchestrator"
  | registry => "zentitle_codegen.generator.registry"
  | webhooks => "zentitle_codegen.generator.webhooks"
  | files => "zentitle_codegen.generator.files"

/-- A record of the log. -/
structure LogRecord where
  level : Level
  origin : Origin
  message : String
  deriving DecidableEq, Repr

/-! ### World -/

/-- The answer of the network to a request. -/
inductive Reply
  | answered (status : Int) (reason : Option String) (body : String)
  | failed (message : String)
  deriving DecidableEq, Repr

/-- The paths, as they are spelled, at which an operation is refused. -/
structure Denials where
  remove : List String := []
  list : List String := []
  write : List String := []
  deriving DecidableEq, Repr

/-- A step of the folder of scratch copies. -/
inductive ScratchStep
  /-- A copy is kept, under the number of the steps before it. -/
  | keep (content : String)
  /-- The copy of a number is removed. -/
  | drop (number : Nat)
  deriving DecidableEq, Repr

/-- The scratch copies that are left by number, after steps of which the latest comes first. -/
def copiesAfter : List ScratchStep → List (Nat × String)
  | [] => []
  | .keep content :: before => copiesAfter before ++ [(before.length, content)]
  | .drop number :: before => (copiesAfter before).filter (·.1 != number)

/-- The world. -/
structure World where
  tree : Files.Tree := {}
  /-- The current folder. -/
  current : Files.Location := []
  /-- The spelling of the top of the tree. -/
  top : String := ""
  denied : Denials := {}
  /-- The steps of the folder of scratch copies, the latest first. -/
  scratchSteps : List ScratchStep := []
  /-- The spelling of the path of a scratch copy. -/
  scratchPath : String := ""
  /-- The moments that the clock shows, in microseconds since 1970; the last one stays. -/
  clock : List Int := []
  /-- The answers by address. -/
  replies : List (String × Reply) := []
  /-- The requests made, each with its time limit. -/
  requests : List (String × Value) := []
  log : List LogRecord := []

/-- The scratch copies that are left, by number. -/
def World.scratch (w : World) : List (Nat × String) := copiesAfter w.scratchSteps

/-! ### Failures -/

/-- Why a run fails. -/
inductive RunError
  /-- The document could not be fetched; there is no status without an answer. -/
  | download (status : Option Int) (reason : String)
  /-- A generated file could not be written. -/
  | notWritten (path cause : String)
  /-- Generated files are at fault. -/
  | rejected (faults : List (String × Typescript.Fault))
  /-- An operation on files was refused. -/
  | file (e : Files.FileError)
  /-- A path holds a null character. -/
  | nullInPath
  | load (e : LoadError)
  /-- The document has no JSON form, or its version no text. -/
  | unwritable (fault : Json.WriteFault)
  | extract (e : Api.ExtractError)
  | render (e : Template.RenderError)

/-- The wording of a failed download. -/
def downloadMessage (status : Option Int) (reason : String) : String :=
  "Failed to download OpenAPI spec: " ++
    (match status with | none => "" | some s => toString s ++ " ") ++ reason

/-- The wording of a failure to write. -/
def notWrittenMessage (path cause : String) : String :=
  "Failed to write " ++ path ++ ": " ++ cause

/-- The wording of a refusal of files, by the messages of their faults. -/
def rejectedMessage (faults : List (String × String)) : String :=
  "Generated artifacts failed validation: " ++
    String.intercalate "; " (faults.map fun (name, message) => name ++ ": " ++ message)

/-! ### Steps -/

end Run

/-- A computation in the world. -/
abbrev Run := ExceptT Run.RunError (StateM Run.World)

namespace Run

/-- Write to the log. -/
def record (level : Level) (origin : Origin) (message : String) : Run Unit :=
  modify fun w => { w with log := w.log ++ [⟨level, origin, message⟩] }

/-- Write to the log what a run is doing. -/
def inform (origin : Origin) (message : String) : Run Unit := record .info origin message

/-- The moment that the clock shows next. -/
def tick : Run Int := do
  let w ← get
  match w.clock with
  | [] => return 0
  | [now] => return now
  | now :: later =>
    set { w with clock := later }
    return now

/-- A computation, and then another whether or not the first one fails. -/
def ensuring {α : Type} (body : Run α) (after : Run Unit) : Run α := fun w =>
  match body w with
  | (.ok a, w) =>
    match after w with
    | (.ok (), w) => (.ok a, w)
    | (.error e, w) => (.error e, w)
  | (.error e, w) =>
    match after w with
    | (.ok (), w) => (.error e, w)
    | (.error e', w) => (.error e', w)

/-- A computation, or the refusal of an operation on files that ends it. -/
def attempt {α : Type} (body : Run α) : Run (Except Files.FileError α) := fun w =>
  match body w with
  | (.ok a, w) => (.ok (.ok a), w)
  | (.error (.file e), w) => (.ok (.error e), w)
  | (.error e, w) => (.error e, w)

end Run

end ApiNodes
