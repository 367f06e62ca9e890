import ApiNodes.Document.Value
import ApiNodes.Number.Numeral
import ApiNodes.Number.Shortest
import ApiNodes.Text.Quoted

namespace ApiNodes

/-!
# Values as text

The text of a value in generated code, versions and messages.  A text stands for itself
at the top and is quoted inside a container; `True`, `False` and `None` are the words for
the truth values and the null value; a moment inside a container is written as the
constructor call that builds it.  Where a container comes back inside itself, three periods
between its brackets stand for it.  A value with an integer of very many digits has no text.
-/

/-- Pieces with a comma and a blank between each two. -/
def commaJoined : List String → String
  | [] => ""
  | [p] => p
  | p :: q :: r => p ++ ", " ++ commaJoined (q :: r)

/-- The constructor call that builds a date. -/
def Date.shown (d : Date) : String :=
  "datetime.date(" ++ commaJoined [toString d.year, toString d.month, toString d.day] ++ ")"

/-- The constructor call that builds an offset, in whole days and the seconds beyond them. -/
def shownOffset (minutes : Int) : String :=
  if minutes = 0 then "datetime.timezone.utc"
  else
    let days := Int.fdiv minutes 1440
    let seconds := (minutes - days * 1440) * 60
    let parts := (if days = 0 then [] else ["days=" ++ toString days]) ++
      (if seconds = 0 then [] else ["seconds=" ++ toString seconds])
    "datetime.timezone(datetime.timedelta(" ++ commaJoined parts ++ "))"

/-- The constructor call that builds a timestamp; a zero second is left out when no
    microseconds follow it. -/
def Timestamp.shown (t : Timestamp) : String :=
  let fields := [t.date.year, t.date.month, t.date.day, t.hour, t.minute] ++
    (if t.micro = 0 then (if t.second = 0 then [] else [t.second]) else [t.second, t.micro])
  "datetime.datetime(" ++ commaJoined (fields.map toString ++
    (match t.offset with | none => [] | some o => ["tzinfo=" ++ shownOffset o])) ++ ")"

/-- One byte of a quoted byte string. -/
def shownByte (q : Char) (b : UInt8) : List Char :=
  let c := Char.ofNat b.toNat
  if c = q ∨ c = '\\' then ['\\', c]
  else if c = '\n' then ['\\', 'n']
  else if c = '\r' then ['\\', 'r']
  else if c = '\t' then ['\\', 't']
  else if 0x20 ≤ b.toNat ∧ b.toNat < 0x7f then [c]
  else '\\' :: 'x' :: Text.hexDigits 2 b.toNat

/-- A quoted byte string. -/
def shownBytes (data : List UInt8) : String :=
  let q := Text.delimiter (data.map fun b => Char.ofNat b.toNat)
  .ofList ('b' :: q :: data.flatMap (shownByte q) ++ [q])

/-- The braces around the text of a mapping or a set. -/
def braced (s : String) : String := "\x7b" ++ s ++ "\x7d"

/-- The mark of a container inside itself. -/
def ellipsis : Value → String
  | .map _ => braced "..."
  | .pair _ _ => "(...)"
  | _ => "[...]"

mutual

/-- The text of a value inside a container; `around` has the marks of the knots that it is
    part of. -/
def Value.shownIn (around : List (Nat × String)) : Value → String
  | .null => "None"
  | .bool b => if b then "True" else "False"
  | .int i => toString i
  | .float x => x.text Binary64.plainLayout
  | .str s => Text.quoted s
  | .list xs => "[" ++ commaJoined (shownItems around xs) ++ "]"
  | .map es => braced (commaJoined (shownEntries around es))
  | .date d => d.shown
  | .timestamp t => t.shown
  | .bytes data => shownBytes data
  | .set [] => "set()"
  | .set (x :: xs) => braced (commaJoined (x.shownIn around :: shownItems around xs))
  | .pair a b => "(" ++ commaJoined [a.shownIn around, b.shownIn around] ++ ")"
  | .knot l body =>
    match around.lookup l with
    | some mark => mark
    | none => body.shownIn ((l, ellipsis body) :: around)
  | .again l => (around.lookup l).getD "..."

/-- The texts of the items of a list. -/
def shownItems (around : List (Nat × String)) : List Value → List String
  | [] => []
  | x :: xs => x.shownIn around :: shownItems around xs

/-- The texts of the entries of a mapping. -/
def shownEntries (around : List (Nat × String)) : List (Value × Value) → List String
  | [] => []
  | (k, v) :: es => (k.shownIn around ++ ": " ++ v.shownIn around) :: shownEntries around es

end

/-- The text of a value inside a container. -/
def Value.shown (v : Value) : String := v.shownIn []

/-- The text of a value that stands alone. -/
def Value.text : Value → String
  | .str s => s
  | .date d => d.iso
  | .timestamp t => t.written " "
  | v => v.shown

/-! ### Long integers -/

/-- An integer with more digits than decimal texts may have. -/
def isLongInteger (i : Int) : Bool := decide (Binary64.tenTo Numeral.digitLimit ≤ i.natAbs)

mutual

/-- A long integer is part of the value. -/
def Value.hasLongInteger : Value → Bool
  | .int i => isLongInteger i
  | .list xs | .set xs => anyHasLongInteger xs
  | .map es => anyEntryHasLongInteger es
  | .pair a b => a.hasLongInteger || b.hasLongInteger
  | .knot _ body => body.hasLongInteger
  | _ => false

/-- A long integer is part of an item. -/
def anyHasLongInteger : List Value → Bool
  | [] => false
  | x :: xs => x.hasLongInteger || anyHasLongInteger xs

/-- A long integer is part of an entry. -/
def anyEntryHasLongInteger : List (Value × Value) → Bool
  | [] => false
  | (k, v) :: es => k.hasLongInteger || v.hasLongInteger || anyEntryHasLongInteger es

end

/-- The text of a value that stands alone, if it has one. -/
def Value.text? (v : Value) : Option String := if v.hasLongInteger then none else some v.text

end ApiNodes
