import ApiNodes.Run.Access

namespace ApiNodes.Run

open Files (Path)

/-!
# Generated files

Generated files are written with the folders they stand in, after they are reviewed, and
the old ones are cleared away by the endings of their names.
-/

/-- The ending of the names of handler files. -/
def handlerEnding : String := "-handler.ts"

/-- The ending of the names of property files. -/
def propertiesEnding : String := "-properties.ts"

/-- Write a generated file and make the folders on the way. -/
def writeArtifact (p : Path) (content : String) : Run Path := do
  let written ← attempt do
    makeFolders p.parent
    writeText p content
  match written with
  | .ok () => return p
  | .error e => throw (.notWritten p.text e.message)

/-- Write files below a folder, with a line in the log for each. -/
def writeArtifacts (folder : Path) (origin : Origin) (announce : String) :
    List (String × String) → Run (List Path)
  | [] => return []
  | (name, content) :: files => do
    let p ← writeArtifact (folder.join (.ofString name)) content
    inform origin (announce ++ name)
    return p :: (← writeArtifacts folder origin announce files)

/-- Fail if files are at fault. -/
def requireSound (files : List (String × String)) : Run Unit :=
  match Typescript.review files with
  | [] => pure ()
  | faults => throw (.rejected faults)

/-- The text of a template. -/
def rendered {α : Type} : Except Template.RenderError α → Run α
  | .ok a => pure a
  | .error e => throw (.render e)

/-! ### Cleaning -/

/-- The entries of a folder, in the order of their names; none if it cannot be listed. -/
def candidates (folder : Path) : Run (List Path) := do
  let listed ← attempt do
    if ← isFolder folder then return (← listFolder folder).map folder.child else return []
  match listed with
  | .ok paths => return paths
  | .error e =>
    record .warning .files ("Error cleaning " ++ folder.text ++ ": " ++ e.message)
    return []

/-- Remove those of the paths that are files with an ending.  One that cannot be removed is
    passed over. -/
def removeEnding (ending : String) : List Path → Run (List Path)
  | [] => return []
  | p :: ps =>
    if Text.endsWith ending p.name.toList then do
      if ← isFile p then
        match ← attempt (dropFile p) with
        | .error e =>
          record .warning .files ("Could not remove " ++ p.text ++ ": " ++ e.message)
          removeEnding ending ps
        | .ok () =>
          inform .files ("  Removed " ++ p.name)
          return p :: (← removeEnding ending ps)
      else removeEnding ending ps
    else removeEnding ending ps

/-- Remove the files of a folder whose names have an ending. -/
def cleanGenerated (folder : Path) (ending : String) : Run (List Path) := do
  removeEnding ending (← candidates folder)

end ApiNodes.Run
