import ApiNodes.Document.Shown

namespace ApiNodes.Json

/-!
# Writing JSON

Documents are written in ASCII, each item and each entry on a line of its own, two blanks
deeper than its container; an empty container stays on one line.  A key that is a number,
a truth value or the null value is written as a text; other keys have no JSON form, and
neither have long integers and collections that hold themselves.  The fault of a document is
the first one that the writer comes to.
-/

/-- The escape of a code unit of 16 bits. -/
def unitEscape (n : Nat) : List Char := '\\' :: 'u' :: Text.hexDigits 4 n

/-- One character of a JSON text: printable ASCII as itself, the rest escaped, beyond the
    first plane as a pair of surrogates. -/
def escapeChar (c : Char) : List Char :=
  if c = '\x22' then ['\\', '\x22']
  else if c = '\\' then ['\\', '\\']
  else if c = '\n' then ['\\', 'n']
  else if c = '\r' then ['\\', 'r']
  else if c = '\t' then ['\\', 't']
  else if c = '\x08' then ['\\', 'b']
  else if c = '\x0c' then ['\\', 'f']
  else if 0x20 ≤ c.toNat ∧ c.toNat < 0x7f then [c]
  else if c.toNat < 0x10000 then unitEscape c.toNat
  else
    let n := c.toNat - 0x10000
    unitEscape (0xd800 + n / 0x400) ++ unitEscape (0xdc00 + n % 0x400)

/-- A text between quotes. -/
def textLiteral (s : String) : String :=
  .ofList ('\x22' :: s.toList.flatMap escapeChar ++ ['\x22'])

/-- Why a document has no JSON form. -/
inductive WriteFault
  /-- A value or a key of a kind that JSON has no form for. -/
  | foreign
  /-- An integer with more digits than decimal texts may have. -/
  | longInteger
  /-- A collection that holds itself. -/
  | endless
  deriving DecidableEq, Repr

/-- What is done with a value that JSON has no form for. -/
inductive Foreign
  /-- The document is refused. -/
  | refuse
  /-- The value is written as its text. -/
  | asText
  deriving DecidableEq

/-- The decimal text of an integer. -/
def integerText (i : Int) : Except WriteFault String :=
  if isLongInteger i then .error .longInteger else .ok (toString i)

/-- The text that a key is written as. -/
def keyText : Value → Except WriteFault String
  | .str s => .ok s
  | .int i => integerText i
  | .float x => .ok (x.text Binary64.jsonLayout)
  | .bool b => .ok (if b then "true" else "false")
  | .null => .ok "null"
  | _ => .error .foreign

/-- A line break and the margin of a nesting depth. -/
def margin (depth : Nat) : String := .ofList ('\n' :: List.replicate (2 * depth) ' ')

/-- Lines between brackets, separated by commas. -/
def block (opener closer : String) (depth : Nat) : List String → String
  | [] => opener ++ closer
  | lines =>
    opener ++ margin (depth + 1) ++ String.intercalate ("," ++ margin (depth + 1)) lines ++
      margin depth ++ closer

/-- A value that JSON has no form for. -/
def foreign (policy : Foreign) (v : Value) : Except WriteFault String :=
  match policy, v.text? with
  | .refuse, _ => .error .foreign
  | .asText, some s => .ok (textLiteral s)
  | .asText, none => .error .longInteger

mutual

/-- The JSON form of a value at a nesting depth. -/
def write (policy : Foreign) (depth : Nat) : Value → Except WriteFault String
  | .null => .ok "null"
  | .bool b => .ok (if b then "true" else "false")
  | .int i => integerText i
  | .float x => .ok (x.text Binary64.jsonLayout)
  | .str s => .ok (textLiteral s)
  | .list xs => do return block "[" "]" depth (← writeItems policy (depth + 1) xs)
  | .map es => do return block "\x7b" "\x7d" depth (← writeEntries policy (depth + 1) es)
  | .pair a b => do
    return block "[" "]" depth [← write policy (depth + 1) a, ← write policy (depth + 1) b]
  | .date d => foreign policy (.date d)
  | .timestamp t => foreign policy (.timestamp t)
  | .bytes data => foreign policy (.bytes data)
  | .set xs => foreign policy (.set xs)
  | .knot _ body => write policy depth body
  | .again _ => .error .endless

/-- The JSON forms of the items of a list. -/
def writeItems (policy : Foreign) (depth : Nat) : List Value → Except WriteFault (List String)
  | [] => .ok []
  | x :: xs => do return (← write policy depth x) :: (← writeItems policy depth xs)

/-- The JSON forms of the entries of a mapping. -/
def writeEntries (policy : Foreign) (depth : Nat) :
    List (Value × Value) → Except WriteFault (List String)
  | [] => .ok []
  | (k, v) :: es => do
    let key ← keyText k
    return (textLiteral key ++ ": " ++ (← write policy depth v)) ::
      (← writeEntries policy depth es)

end

/-- The JSON form of a document. -/
def document (policy : Foreign) (v : Value) : Except WriteFault String := write policy 0 v

end ApiNodes.Json
