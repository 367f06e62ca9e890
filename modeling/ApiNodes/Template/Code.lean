import ApiNodes.Template.Basic

namespace ApiNodes.Template

/-!
# Pieces of generated code

The shapes that the templates are put together from: literals, imports, comments, and
objects, arrays and blocks that are written line by line between their brackets.
-/

/-- The margin of a nesting depth. -/
def tabs (depth : Nat) : String := .ofList (List.replicate depth '\t')

/-- A fixed literal. -/
def literal (s : String) : Part := .literal '\x27' [.text s]

/-- A literal that is filled in. -/
def filled (h : Hole) : Part := .literal '\x27' [.hole h]

/-- Parts between round brackets. -/
def round (body : List Part) : Part := .group .round body

/-- Parts between square brackets. -/
def square (body : List Part) : Part := .group .square body

/-- Parts between curly brackets. -/
def curly (body : List Part) : Part := .group .curly body

/-- One line at a depth. -/
def line (depth : Nat) (body : List Part) : List Part :=
  .text (tabs depth) :: body ++ [.text "\n"]

/-- One line of fixed text at a depth. -/
def plainLine (depth : Nat) (s : String) : List Part := [.text (tabs depth ++ s ++ "\n")]

/-- Lines between brackets; the closing bracket stands at the given depth. -/
def block (b : Bracket) (depth : Nat) (lines : List (List Part)) : Part :=
  .group b (.text "\n" :: lines.flatten ++ [.text (tabs depth)])

/-- Lines of fixed text between brackets, one level deeper than the closing bracket. -/
def plainBlock (b : Bracket) (depth : Nat) (lines : List String) : Part :=
  block b depth (lines.map (plainLine (depth + 1)))

/-- An entry of an object. -/
def entry (depth : Nat) (name : String) (value : List Part) : List Part :=
  .text (tabs depth ++ name ++ ": ") :: value ++ [.text ",\n"]

/-- An element of an array. -/
def element (depth : Nat) (value : Part) : List Part :=
  [.text (tabs depth), value, .text ",\n"]

/-- An import of names, or of nothing but types, from a module. -/
def importOf (keyword : String) (names : List Part) (source : List Part) : List Part :=
  [.text (keyword ++ " "), curly (.text " " :: names ++ [.text " "]), .text " from ",
   .literal '\x27' source, .text ";\n"]

/-- An import of fixed names. -/
def plainImport (keyword names source : String) : List Part :=
  importOf keyword [.text names] [.text source]

/-- A comment in front of a declaration. -/
def comment (lines : List (List Part)) : List Part :=
  .text "/**\n" :: lines.flatMap (fun l => .text " * " :: l ++ [.text "\n"]) ++ [.text " */\n"]

/-- A comment of fixed lines. -/
def plainComment (lines : List String) : List Part := comment (lines.map fun s => [.text s])

/-- The second line of the comments at the head of generated files. -/
def originLine : String := "Generated automatically from OpenAPI specification"

/-- The package that the types of the host come from. -/
def hostPackage : String := "n8n-workflow"

end ApiNodes.Template
