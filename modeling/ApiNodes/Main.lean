import ApiNodes.Command.Inputs
import Std.Time.DateTime.Timestamp

/-!
# The program

The files that a command line may read are read into a tree, the command line is run in it,
and what the run changed is written back.  Documents come from files: the program asks no
network.
-/

namespace ApiNodes.Program

open Files (Entry Location Path Tree)
open Run (World)

/-- The name in the environment that may give the source of the document. -/
def sourceVariable : String := "ZENTITLE_OPENAPI_URL"

/-- The path of a location on the disk. -/
def diskPath (l : Location) : String := "/" ++ String.intercalate "/" l

/-- The tree with a file of the disk and the folders on the way to it, if there is such a
    file. -/
def addFile (current : Location) (t : Tree) (p : Path) : IO Tree := do
  let l := (p.resolved "" current).names
  match ← (IO.FS.readBinFile (diskPath l)).toBaseIO with
  | .ok data => return (t.withFolders l.dropLast).set l (.file data)
  | .error _ => return t

/-- The tree of the files that a command line may read. -/
def treeFor (arguments : List String) (environment : Option String) (current : Location) :
    IO Tree := do
  let t := Tree.withFolders { whole := true } current
  match Command.given? arguments with
  | none => return t
  | some g =>
    let t ← (g.inputs environment).foldlM (addFile current) t
    (g.imports t current).foldlM (addFile current) t

/-- The world as it is. -/
def worldFor (arguments : List String) (environment : Option String) : IO World := do
  let current := (Path.ofString (toString (← IO.currentDir))).names
  let now := (← Std.Time.Timestamp.now).toNanosecondsSinceUnixEpoch.val / 1000
  return {
    tree := ← treeFor arguments environment current
    current
    scratchPath := "/tmp/openapi-" ++ toString now ++ ".json"
    clock := [now] }

/-- Write an entry to the disk. -/
def store (path : String) : Entry → IO Unit
  | .folder => IO.FS.createDirAll path
  | .file data => IO.FS.writeBinFile path data

/-- Write to the disk what is new in a tree, and remove what is gone. -/
def storeChanges (before after : Tree) : IO Unit := do
  for (l, e) in after.entries do
    if (before.at? l).map Entry.bytes? != some e.bytes? then store (diskPath l) e
  for (l, _) in before.entries do
    if (after.at? l).isNone then IO.FS.removeFile (diskPath l)

/-- Run a command line on the disk. -/
def runOnDisk (arguments : List String) : IO UInt32 := do
  let environment ← IO.getEnv sourceVariable
  let before ← worldFor arguments environment
  let (outcome, after) := Command.run arguments environment before
  storeChanges before.tree after.tree
  IO.print outcome.stdout
  IO.eprint outcome.stderr
  if outcome.failure.isSome then IO.eprintln "The run failed."
  return outcome.exitCode.toUInt32

end ApiNodes.Program

/-- The program. -/
def main (arguments : List String) : IO UInt32 := ApiNodes.Program.runOnDisk arguments
