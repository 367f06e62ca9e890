import ApiNodes.Text.Pieces

namespace ApiNodes.Files

/-!
# Paths of files

A path is a starting point and the names that lead on from it.  Empty names and single
periods count for nothing; two periods lead back and stay as they are until the path is
followed.
-/

/-- Where a path starts. -/
inductive Anchor
  /-- At the current folder. -/
  | current
  /-- At the top of the tree, which is spelled as given. -/
  | top (spelled : String)
  /-- Outside of the tree, at a root that is spelled as given. -/
  | outside (root : String)
  deriving DecidableEq, Repr

/-- A path. -/
structure Path where
  anchor : Anchor := .current
  names : List String
  deriving DecidableEq, Repr

/-- The root that a path is written with: two slashes are a root of their own. -/
def rootOf : List Char → String
  | '/' :: '/' :: '/' :: _ => "/"
  | '/' :: '/' :: _ => "//"
  | '/' :: _ => "/"
  | _ => ""

/-- The path that a text spells. -/
def Path.ofString (s : String) : Path :=
  let root := rootOf s.toList
  { anchor := if root = "" then .current else .outside root
    names := (Text.pieces '/' s).filter fun p => p != "" && p != "." }

/-- The spelling of a path. -/
def Path.text (p : Path) : String :=
  let tail := String.intercalate "/" p.names
  match p.anchor with
  | .current => if p.names.isEmpty then "." else tail
  | .top spelled => if p.names.isEmpty then spelled else spelled ++ "/" ++ tail
  | .outside root => root ++ tail

/-- A path that goes on from another, unless it has a starting point of its own. -/
def Path.join (p q : Path) : Path :=
  match q.anchor with
  | .current => { p with names := p.names ++ q.names }
  | _ => q

/-- The path to an entry of a folder. -/
def Path.child (p : Path) (name : String) : Path := { p with names := p.names ++ [name] }

/-- The path without its last name. -/
def Path.parent (p : Path) : Path := { p with names := p.names.dropLast }

/-- The last name of a path; a starting point has none. -/
def Path.name (p : Path) : String := p.names.getLast?.getD ""

/-- A path that holds a null character leads nowhere. -/
def Path.hasNull (p : Path) : Bool := p.names.any (·.toList.contains (Char.ofNat 0))

end ApiNodes.Files
