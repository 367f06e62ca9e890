import ApiNodes.Document.Base64
import ApiNodes.Document.Value
import ApiNodes.Document.Yaml.Fault
import ApiNodes.Document.Yaml.PlainTag
import ApiNodes.Number.Numeral
import ApiNodes.Text.Casing

namespace ApiNodes.Yaml

/-!
# Values of scalars

The value that a text stands for, by its tag.  A tag asks for a text that its kind can read;
only the standard tags have values.
-/

/-! ### Numbers -/

/-- The integer in base sixty that pieces stand for. -/
def sixtyInteger? (pieces : List (List Char)) : Option Int :=
  pieces.foldl (fun n p => do return (← n) * 60 + (← Numeral.integer? 10 p)) (some 0)

/-- An integer. -/
def readInteger (s : List Char) : Except Fault Value :=
  let s := s.filter (· != '_')
  if s.isEmpty then .error .noNumber
  else
    let (negative, digits) := Numeral.signed s
    let result (n : Option Int) : Except Fault Value :=
      match n with
      | some i => .ok (.int (if negative then -i else i))
      | none => .error .badNumber
    match digits with
    | [] => .error .noNumber
    | ['0'] => .ok (.int 0)
    | '0' :: 'b' :: r => result (Numeral.integer? 2 r)
    | '0' :: 'x' :: r => result (Numeral.integer? 16 r)
    | '0' :: _ => result (Numeral.integer? 8 digits)
    | _ =>
      if digits.contains ':' then result (sixtyInteger? (colonPieces digits))
      else result (Numeral.integer? 10 digits)

/-- The sum of numbers with their places in base sixty, from the last place on.  A place has
    to be a number of the format. -/
def sixtySum (place : Nat) (total : Binary64) : List Binary64 → Except Fault Binary64
  | [] => .ok total
  | x :: xs =>
    match Binary64.ofNat place with
    | .infinite _ => .error .tooLarge
    | p => sixtySum (place * 60) (total.add (x.mul p)) xs

/-- The text of a floating-point number without underscores, in small letters. -/
def floatText (s : List Char) : List Char := Text.lowerChars (s.filter (· != '_'))

/-- The word for what is not a number; a sign before it has no meaning. -/
def isNanWord (s : List Char) : Bool := (Numeral.signed (floatText s)).2 == ".nan".toList

/-- A floating-point number. -/
def readFloat (s : List Char) : Except Fault Value :=
  let s := floatText s
  if s.isEmpty then .error .noNumber
  else
    let (negative, digits) := Numeral.signed s
    let result (x : Binary64) : Value := .float (if negative then x.negate else x)
    let number (p : List Char) : Except Fault Binary64 :=
      match Numeral.float? p with
      | some x => .ok x
      | none => .error .badNumber
    if digits = ".inf".toList then .ok (result (.infinite false))
    else if digits = ".nan".toList then .ok (.float .nan)
    else if digits.contains ':' then do
      let xs ← (colonPieces digits).mapM number
      return result (← sixtySum 1 (.zero false) xs.reverse)
    else result <$> number digits

/-! ### Words -/

/-- A truth value. -/
def readTruth (s : String) : Except Fault Value :=
  match truthWords.lookup (Text.lower s) with
  | some b => .ok (.bool b)
  | none => .error .badTruth

/-! ### Moments -/

/-- The microseconds that the digits of a fraction stand for. -/
def microseconds (fraction : List Char) : Nat :=
  let digits := fraction.take 6
  Json.decimalNumber (digits ++ List.replicate (6 - digits.length) '0')

/-- The offset in minutes. -/
def Moment.minutes (m : Moment) : Option Int :=
  m.offset.map fun (negative, hours, minutes) =>
    let n : Int := Json.decimalNumber hours * 60 + Json.decimalNumber minutes
    if negative = some true then -n else n

/-- The date or the timestamp of a moment, if it exists. -/
def Moment.value? (m : Moment) : Option Value :=
  let date : Date :=
    ⟨Json.decimalNumber m.year, Json.decimalNumber m.month, Json.decimalNumber m.day⟩
  match m.time with
  | none => if date.isValid then some (.date date) else none
  | some (hour, minute, second, fraction) =>
    let t : Timestamp :=
      { date, hour := Json.decimalNumber hour, minute := Json.decimalNumber minute
        second := Json.decimalNumber second, micro := microseconds fraction, offset := m.minutes }
    if t.isValid then some (.timestamp t) else none

/-- A date or a timestamp. -/
def readMoment (s : List Char) : Except Fault Value :=
  match moment? (Text.dropTail ['\n'] s) with
  | none => .error .badMoment
  | some m =>
    match m.value? with
    | some v => .ok v
    | none => .error .badNumber

/-! ### Kinds -/

/-- A row of bytes. -/
def readBytes (s : List Char) : Except Fault Value :=
  match if s.all (·.toNat < 128) then Base64.decode? s else none with
  | some data => .ok (.bytes data)
  | none => .error .malformed

/-- The readers of texts by tag. -/
def scalarReader? (tag : String) : Option (String → Except Fault Value) :=
  if tag = standardTag "null" then some fun _ => .ok .null
  else if tag = standardTag "bool" then some readTruth
  else if tag = standardTag "int" then some fun s => readInteger s.toList
  else if tag = standardTag "float" then some fun s => readFloat s.toList
  else if tag = standardTag "binary" then some fun s => readBytes s.toList
  else if tag = standardTag "timestamp" then some fun s => readMoment s.toList
  else if tag = standardTag "str" then some fun s => .ok (.str s)
  else none

end ApiNodes.Yaml
