import ApiNodes.Run.World

namespace ApiNodes.Run

open Files (Path Entry Fault)

/-!
# Access to files

The operations on the file tree that a run performs, each at a path as it is spelled.  An
operation on a path with a null character fails, and a question about one is answered in the
negative.
-/

/-- A refused operation at a path. -/
def refuse {α : Type} (p : Path) (fault : Fault) : Run α := throw (.file ⟨fault, p.text⟩)

/-- The answer of the tree, or a refusal at the path. -/
def orRefuse {α : Type} (p : Path) : Except Fault α → Run α
  | .ok a => pure a
  | .error fault => refuse p fault

/-- Fail on a null character. -/
def checkNull (p : Path) : Run Unit := if p.hasNull then throw .nullInPath else pure ()

/-! ### Questions -/

/-- The entry at a path, if there is one. -/
def entryAt? (p : Path) : Run (Option Entry) := do
  if p.hasNull then return none
  let w ← get
  match w.tree.entry w.current p with
  | .ok e => return some e
  | .error .missing | .error .notFolder => return none
  | .error fault => refuse p fault

/-- There is a file at a path. -/
def isFile (p : Path) : Run Bool := do
  match ← entryAt? p with
  | some (.file _) => return true
  | _ => return false

/-- There is a folder at a path. -/
def isFolder (p : Path) : Run Bool := do
  match ← entryAt? p with
  | some .folder => return true
  | _ => return false

/-- There is something at a path. -/
def isThere (p : Path) : Run Bool := do return (← entryAt? p).isSome

/-! ### Reading -/

/-- The content of a file. -/
def fileContent (p : Path) : Run ByteArray := do
  checkNull p
  let w ← get
  orRefuse p (w.tree.fileContent w.current p)

/-- The names in a folder. -/
def listFolder (p : Path) : Run (List String) := do
  let w ← get
  if p.text ∈ w.denied.list then refuse p .denied
  checkNull p
  orRefuse p (w.tree.listFolder w.current p)

/-! ### Writing -/

/-- Change the tree, or fail with the refusal at the path. -/
def change (p : Path) (f : Files.Tree → Files.Location → Except Fault Files.Tree) : Run Unit := do
  checkNull p
  let w ← get
  let tree ← orRefuse p (f w.tree w.current)
  set { w with tree }

/-- Write a file. -/
def putFile (p : Path) (data : ByteArray) : Run Unit := do
  if p.text ∈ (← get).denied.write then refuse p .denied
  change p fun t here => t.putFile here p data

/-- Write a text to a file. -/
def writeText (p : Path) (s : String) : Run Unit := putFile p s.toUTF8

/-- Remove a file. -/
def dropFile (p : Path) : Run Unit := do
  if p.text ∈ (← get).denied.remove then refuse p .denied
  change p fun t here => t.dropFile here p

/-- Make a folder. -/
def makeFolder (p : Path) : Run Unit := change p fun t here => t.makeFolder here p

/-- Make a folder unless there is one.  `onMissing` is done where a folder on the way is
    missing. -/
def makeFolderOr (p : Path) (onMissing : Files.FileError → Run Unit) : Run Unit := do
  match ← attempt (makeFolder p) with
  | .ok () => return
  | .error e =>
    if e.fault = .missing then onMissing e
    else if ← isFolder p then return
    else throw (.file e)

/-- Make a folder and the missing ones on the way, the way being `depth` names long at
    most. -/
def makeFoldersUpTo : Nat → Path → Run Unit
  | 0, p => makeFolderOr p fun e => throw (.file e)
  | depth + 1, p =>
    makeFolderOr p fun e => do
      if p.names.isEmpty then throw (.file e)
      makeFoldersUpTo depth p.parent
      makeFolderOr p fun e => throw (.file e)

/-- Make a folder and the missing ones on the way to it. -/
def makeFolders (p : Path) : Run Unit := makeFoldersUpTo p.names.length p

end ApiNodes.Run
