import ApiNodes.Ordered
import ApiNodes.Text.Pieces
import ApiNodes.Text.Quoted
import ApiNodes.Typescript.Brackets

namespace ApiNodes.Typescript

/-!
# Review of generated files

Files are reviewed before they are written.  No file may hold a placeholder that was never
filled in, and in a TypeScript file the brackets have to nest.  The review is a table of
the files at fault: first those with placeholders, then the others, each in file order.
-/

/-! ### Placeholders -/

/-- The text up to and with the first `a` that `b` follows, on the same line. -/
def closedBy (a b : Char) : List Char → Option (List Char)
  | c :: d :: r =>
    if c = a ∧ d = b then some [c, d]
    else if c = '\n' then none
    else (closedBy a b (d :: r)).map (c :: ·)
  | _ => none

/-- The placeholder that a text begins with. -/
def placeholderAt? : List Char → Option (List Char)
  | '{' :: '{' :: r => (closedBy '}' '}' r).map fun s => '{' :: '{' :: s
  | '{' :: '%' :: r => (closedBy '%' '}' r).map fun s => '{' :: '%' :: s
  | _ => none

/-- The first placeholder of a text, and its line. -/
def placeholderFrom? (line : Nat) : List Char → Option (List Char × Nat)
  | [] => none
  | c :: r =>
    match placeholderAt? (c :: r) with
    | some s => some (s, line)
    | none => placeholderFrom? (lineAfter line c) r

/-! ### Faults -/

/-- What is wrong with a file. -/
inductive Fault
  | placeholder (text : String) (line : Nat)
  | imbalance (found : Imbalance)
  deriving DecidableEq, Repr

/-- A line in brackets behind a message. -/
def inLine (line : Nat) : String := " (line " ++ toString line ++ ")"

/-- The wording of an imbalance. -/
def Imbalance.message : Imbalance → String
  | unterminated line => "Unterminated string literal" ++ inLine line
  | unexpected c line => "Unexpected " ++ Text.quoted (.ofList [c]) ++ inLine line
  | unclosed c line => "Unclosed " ++ Text.quoted (.ofList [c]) ++ inLine line

/-- The wording of a fault. -/
def Fault.message : Fault → String
  | placeholder text line => "Unresolved placeholder " ++ Text.quoted text ++ inLine line
  | imbalance found => found.message

/-! ### Files -/

/-- The placeholder that a file holds. -/
def placeholderFault? (content : String) : Option Fault :=
  (placeholderFrom? 1 content.toList).map fun (s, line) => .placeholder (.ofList s) line

/-- The imbalance of a file, if it is a TypeScript file. -/
def bracketFault? (name content : String) : Option Fault :=
  if Text.endsWith ".ts" name.toList then (imbalance? content.toList).map .imbalance else none

/-- The files that hold placeholders. -/
def placeholderFaults (files : List (String × String)) : List (String × Fault) :=
  files.filterMap fun (name, content) => (placeholderFault? content).map (name, ·)

/-- The TypeScript files whose brackets do not nest. -/
def bracketFaults (files : List (String × String)) : List (String × Fault) :=
  files.filterMap fun (name, content) => (bracketFault? name content).map (name, ·)

/-- The files at fault. -/
def review (files : List (String × String)) : List (String × Fault) :=
  (bracketFaults files).foldl (fun found (name, fault) => putNew name fault found)
    (placeholderFaults files)

end ApiNodes.Typescript
