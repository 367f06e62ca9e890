import ApiNodes.Files.Path
import ApiNodes.Ordered
import ApiNodes.Text.Quoted

namespace ApiNodes.Files

/-!
# File trees

A tree of folders and files, as a table of entries by location.  A location is the row of
names that leads from the top of the tree to an entry.  There are no links, so that a path
that is followed name by name ends at one location.
-/

/-! ### Trees -/

/-- The names from the top of a tree to an entry. -/
abbrev Location := List String

/-- What stands at a location. -/
inductive Entry
  | folder
  | file (data : ByteArray)

/-- The bytes of a file; a folder has none. -/
def Entry.bytes? : Entry → Option (List UInt8)
  | folder => none
  | file data => some data.toList

/-- A tree.  The top is a folder that the table does not hold; in a whole tree it is the root
    of all paths, so that none leads outside. -/
structure Tree where
  entries : List (Location × Entry) := []
  whole : Bool := false

/-- The entry at a location. -/
def Tree.at? (t : Tree) : Location → Option Entry
  | [] => some .folder
  | l => lookup? l t.entries

/-- The tree with an entry at a location. -/
def Tree.set (t : Tree) (l : Location) (e : Entry) : Tree :=
  { t with entries := put l e t.entries }

/-- The tree without the entry at a location. -/
def Tree.erase (t : Tree) (l : Location) : Tree :=
  { t with entries := t.entries.filter (·.1 != l) }

/-- The tree with a folder at a location and at every location on the way to it. -/
def Tree.withFolders (t : Tree) (l : Location) : Tree :=
  (List.range l.length).foldl (fun t n => t.set (l.take (n + 1)) .folder) t

/-- The names in a folder, sorted. -/
def Tree.namesIn (t : Tree) (l : Location) : List String :=
  (t.entries.filterMap fun (k, _) =>
    if k.dropLast = l then k.getLast? else none).mergeSort fun a b => decide (a ≤ b)

/-- Other locations are as before. -/
theorem Tree.at?_set (t : Tree) (l k : Location) (e : Entry) (h : k ≠ l) :
    (t.set l e).at? k = t.at? k := by
  cases k with
  | nil => rfl
  | cons n ns => simp [Tree.at?, Tree.set, lookup?_put, h.symm]

/-! ### Faults -/

/-- Why an operation on files is refused. -/
inductive Fault
  | missing
  | denied
  | exists
  | notFolder
  | isFolder
  | nameTooLong
  deriving DecidableEq, Repr

/-- The number of a fault. -/
def Fault.number : Fault → Nat
  | missing => 2
  | denied => 13
  | «exists» => 17
  | notFolder => 20
  | isFolder => 21
  | nameTooLong => 36

/-- The wording of a fault. -/
def Fault.text : Fault → String
  | missing => "No such file or directory"
  | denied => "Permission denied"
  | «exists» => "File exists"
  | notFolder => "Not a directory"
  | isFolder => "Is a directory"
  | nameTooLong => "File name too long"

/-- A refused operation, with the path as it was spelled. -/
structure FileError where
  fault : Fault
  path : String
  deriving DecidableEq, Repr

/-- The wording of a refused operation. -/
def FileError.message (e : FileError) : String :=
  "[Errno " ++ toString e.fault.number ++ "] " ++ e.fault.text ++ ": " ++ Text.quoted e.path

/-! ### Following paths -/

/-- Names have at most this many bytes. -/
def nameLimit : Nat := 255

/-- Paths have less than this many bytes. -/
def pathLimit : Nat := 4096

/-- The location that a name leads to from a folder; it need not hold anything. -/
def Tree.next (t : Tree) (here : Location) (name : String) : Except Fault Location :=
  match t.at? here with
  | none => .error .missing
  | some (.file _) => .error .notFolder
  | some .folder =>
    if name = ".." then .ok here.dropLast
    else if nameLimit < name.utf8ByteSize then .error .nameTooLong
    else .ok (here ++ [name])

/-- The location of the entry that names lead to. -/
def Tree.follow (t : Tree) (here : Location) : List String → Except Fault Location
  | [] => .ok here
  | name :: names => do
    let l ← t.next here name
    if (t.at? l).isSome then t.follow l names else .error .missing

/-- The location that a path starts at. -/
def Tree.start (t : Tree) (current : Location) (p : Path) : Except Fault Location :=
  if pathLimit ≤ p.text.utf8ByteSize then .error .nameTooLong
  else
    match p.anchor with
    | .current => .ok current
    | .top _ => .ok []
    | .outside _ => if t.whole then .ok [] else .error .missing

/-- The location of the entry at a path. -/
def Tree.locate (t : Tree) (current : Location) (p : Path) : Except Fault Location := do
  t.follow (← t.start current p) p.names

/-- The entry at a path. -/
def Tree.entry (t : Tree) (current : Location) (p : Path) : Except Fault Entry := do
  match t.at? (← t.locate current p) with
  | some e => return e
  | none => throw .missing

/-- The location that the last name of a path leads to, which need not hold anything.  A
    path that ends in two periods, or has no names, has no last name. -/
def Tree.target (t : Tree) (current : Location) (p : Path) (noName : Fault) :
    Except Fault Location := do
  let here ← t.start current p
  match p.names.getLast? with
  | none => throw noName
  | some name =>
    let l ← t.next (← t.follow here p.names.dropLast) name
    if name = ".." then throw noName else return l

/-! ### Operations -/

/-- Make a folder. -/
def Tree.makeFolder (t : Tree) (current : Location) (p : Path) : Except Fault Tree := do
  let l ← t.target current p .exists
  match t.at? l with
  | some _ => throw .exists
  | none => return t.set l .folder

/-- Write a file, over the one that is there. -/
def Tree.putFile (t : Tree) (current : Location) (p : Path) (data : ByteArray) :
    Except Fault Tree := do
  let l ← t.target current p .isFolder
  match t.at? l with
  | some .folder => throw .isFolder
  | _ => return t.set l (.file data)

/-- The content of a file. -/
def Tree.fileContent (t : Tree) (current : Location) (p : Path) : Except Fault ByteArray := do
  match ← t.entry current p with
  | .folder => throw .isFolder
  | .file data => return data

/-- Remove a file. -/
def Tree.dropFile (t : Tree) (current : Location) (p : Path) : Except Fault Tree := do
  let l ← t.target current p .isFolder
  match t.at? l with
  | none => throw .missing
  | some .folder => throw .isFolder
  | some (.file _) => return t.erase l

/-- The names in a folder. -/
def Tree.listFolder (t : Tree) (current : Location) (p : Path) : Except Fault (List String) := do
  let l ← t.locate current p
  match t.at? l with
  | some .folder => return t.namesIn l
  | _ => throw .notFolder

/-! ### Plain paths -/

/-- The location that a path means when two periods take a name back, whatever the tree
    holds. -/
def plainLocation (current : Location) (names : List String) : Location :=
  names.foldl (fun l name => if name = ".." then l.dropLast else l ++ [name]) current

/-- The path from the top of the tree that means the same as a path; `spelled` is the
    spelling of the top. -/
def Path.resolved (spelled : String) (current : Location) (p : Path) : Path :=
  match p.anchor with
  | .current => ⟨.top spelled, plainLocation current p.names⟩
  | a => ⟨a, plainLocation [] p.names⟩

end ApiNodes.Files
