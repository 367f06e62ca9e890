import ApiNodes.Command.Line

namespace ApiNodes.Command

open Files (Location Path Tree)

/-!
# Inputs of a command line

The files that a command line may read are known before it is run: the options name the
document, the record of versions and the folder of the node, the node has files of fixed
names, and these import the files of its resources.
-/

/-- The options of the command in a command line, if it can be read. -/
def given? (arguments : List String) : Option Given :=
  match readWords groupSpecs false arguments with
  | .error _ => none
  | .ok group =>
    match group.words with
    | [] => none
    | name :: words =>
      (command? name).bind fun c => (readWords c.specs true words).toOption

/-- The files of fixed names that belong to a node. -/
def nodeFiles (output : Path) : List Path :=
  [Artifact.propertyRegistryPath, Artifact.resourceIndexPath, Artifact.resourceConfigPath,
   Artifact.eventsPath, Artifact.typesPath, Run.sharedName].map fun p => output.join (.ofString p)

/-- The files that the options name, and those of fixed names. -/
def Given.inputs (g : Given) (environment : Option String) : List Path :=
  g.versionFile :: ((g.source environment).map Path.ofString).toList ++ nodeFiles g.output

/-- The files that a file imports by their place relative to it. -/
def importedFiles (p : Path) (content : String) : List Path :=
  ((Text.pieces '\x27' content).filter fun s => Text.startsWith "./" s.toList).map fun s =>
    p.parent.join (.ofString (s ++ ".ts"))

/-- The files that the files of fixed names import. -/
def Given.imports (g : Given) (t : Tree) (current : Location) : List Path :=
  (nodeFiles g.output).flatMap fun p =>
    match t.fileContent current p with
    | .ok data => importedFiles p ((fileText? data).getD "")
    | .error _ => []

end ApiNodes.Command
