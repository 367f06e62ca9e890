import ApiNodes.Document.Value
import ApiNodes.Number.Numeral
import ApiNodes.Text.Surrogates

namespace ApiNodes.Json

/-!
# Reading JSON

A reader of JSON texts that also accepts `NaN` and the infinities.  A text that is refused
is refused at a position, for one cause.  Positions are counted in characters; lines end at
line feeds.
-/

/-- Why a text is refused. -/
inductive Fault
  | valueExpected
  | extraData
  | nameExpected
  | colonExpected
  | commaExpected
  | unterminatedString
  | controlCharacter
  | badEscape
  | badCodeEscape
  | byteOrderMark
  /-- An integer with this many digits. -/
  | longInteger (digits : Nat)
  /-- Containers inside one another beyond the limit. -/
  | tooDeep
  deriving DecidableEq, Repr

/-- The wording of a cause. -/
def Fault.text : Fault → String
  | valueExpected => "Expecting value"
  | extraData => "Extra data"
  | nameExpected => "Expecting property name enclosed in double quotes"
  | colonExpected => "Expecting ':' delimiter"
  | commaExpected => "Expecting ',' delimiter"
  | unterminatedString => "Unterminated string starting at"
  | controlCharacter => "Invalid control character at"
  | badEscape => "Invalid \\escape"
  | badCodeEscape => "Invalid \\uXXXX escape"
  | byteOrderMark => "Unexpected UTF-8 BOM (decode using utf-8-sig)"
  | longInteger n =>
    "Exceeds the limit (4300 digits) for integer string conversion: value has " ++ toString n ++
      " digits; use sys.set_int_max_str_digits() to increase the limit"
  | tooDeep => "Containers nested too deeply"

/-- A refusal: its cause and the place, as a count of characters from the start, a line and
    a column. -/
structure ReadError where
  fault : Fault
  position : Nat
  line : Nat
  column : Nat
  deriving DecidableEq, Repr

/-- A limit that is passed is not placed. -/
def Fault.isPlaced : Fault → Bool
  | longInteger _ | tooDeep => false
  | _ => true

/-- The wording of a refusal. -/
def ReadError.message (e : ReadError) : String :=
  if e.fault.isPlaced then
    e.fault.text ++ ": line " ++ toString e.line ++ " column " ++ toString e.column ++
      " (char " ++ toString e.position ++ ")"
  else e.fault.text

/-- The refusal of a text at a position. -/
def ReadError.at (text : List Char) (fault : Fault) (position : Nat) : ReadError :=
  let before := text.take position
  ⟨fault, position, before.count '\n' + 1, (before.reverse.takeWhile (· != '\n')).length + 1⟩

/-- A cause with the length of the rest of the text at which it arises.  A step of reading
    answers with a value and the rest of the text, or with a refusal. -/
abbrev Refusal := Fault × Nat

/-- A step that fails where the rest is `s`. -/
def failAt {α : Type} (fault : Fault) (s : List Char) : Except Refusal α := .error (fault, s.length)

/-- White space between tokens. -/
def isGap (c : Char) : Bool := c == ' ' || c == '\t' || c == '\n' || c == '\r'

/-- Pass over white space. -/
def skipGap (s : List Char) : List Char := s.dropWhile isGap

/-! ### Strings -/

/-- The value of a hexadecimal digit. -/
def hexValue? (c : Char) : Option Nat :=
  if '0' ≤ c ∧ c ≤ '9' then some (c.toNat - 48)
  else if 'a' ≤ c ∧ c ≤ 'f' then some (c.toNat - 87)
  else if 'A' ≤ c ∧ c ≤ 'F' then some (c.toNat - 55)
  else none

/-- The value of hexadecimal digits, most significant first. -/
def hexNumber? (digits : List Char) : Option Nat :=
  digits.foldl (fun n c => do return (← n) * 16 + (← hexValue? c)) (some 0)

/-- The characters that a backslash and one character stand for. -/
def shortEscape? (c : Char) : Option Char :=
  if c = '\x22' ∨ c = '\\' ∨ c = '/' then some c
  else if c = 'b' then some '\x08'
  else if c = 'f' then some '\x0c'
  else if c = 'n' then some '\n'
  else if c = 'r' then some '\r'
  else if c = 't' then some '\t'
  else none

/-- The escape of a code unit, read after its `u`; `mark` is the rest from the `u` on.  At
    least one character has to follow the digits. -/
def codeUnit (mark : List Char) : Except Refusal (Nat × List Char) :=
  let digits := mark.drop 1
  if digits.length ≤ 4 then failAt .badCodeEscape mark
  else
    match hexNumber? (digits.take 4) with
    | some n => .ok (n, digits.drop 4)
    | none => failAt .badCodeEscape mark

/-- A character written by its code, read from the `u` on: a pair of surrogates counts as
    one character, a surrogate on its own as the replacement character. -/
def codeEscape (mark : List Char) : Except Refusal (Char × List Char) := do
  let (n, rest) ← codeUnit mark
  if Text.isHighSurrogate n then
    match rest with
    | '\\' :: 'u' :: r =>
      if rest.length ≤ 6 then return (Text.ofCode n, rest)
      let (low, after) ← codeUnit ('u' :: r)
      if Text.isLowSurrogate low then return (Text.ofPair n low, after)
      else return (Text.ofCode n, rest)
    | _ => return (Text.ofCode n, rest)
  else return (Text.ofCode n, rest)

/-- The rest of a string after its opening quote; `opened` is the length of the rest at that
    quote and `seen` holds the characters read so far, the last first. -/
def stringTail (opened : Nat) : Nat → List Char → List Char → Except Refusal (String × List Char)
  | 0, _, _ => .error (.unterminatedString, opened)
  | fuel + 1, seen, s =>
    match s with
    | [] => .error (.unterminatedString, opened)
    | '\x22' :: r => .ok (.ofList seen.reverse, r)
    | '\\' :: [] => .error (.unterminatedString, opened)
    | '\\' :: c :: r =>
      if c = 'u' then do
        let (d, after) ← codeEscape (c :: r)
        stringTail opened fuel (d :: seen) after
      else
        match shortEscape? c with
        | some d => stringTail opened fuel (d :: seen) r
        | none => failAt .badEscape s
    | c :: r =>
      if c.toNat ≤ 0x1f then failAt .controlCharacter s
      else stringTail opened fuel (c :: seen) r

/-- A string, read after its opening quote. -/
def string (r : List Char) : Except Refusal (String × List Char) :=
  stringTail (r.length + 1) (r.length + 1) [] r

/-! ### Numbers -/

/-- An ASCII digit. -/
def isDigit (c : Char) : Bool := decide ('0' ≤ c ∧ c ≤ '9')

/-- The value of decimal digits. -/
def decimalNumber (digits : List Char) : Nat :=
  digits.foldl (fun n c => n * 10 + (c.toNat - 48)) 0

/-- The integer digits of a numeral: one zero, or digits that do not begin with zero. -/
def wholeDigits : List Char → List Char × List Char
  | '0' :: r => (['0'], r)
  | s => (s.takeWhile isDigit, s.dropWhile isDigit)

/-- The digits after a point, if the point is followed by one. -/
def fractionDigits (s : List Char) : Option (List Char × List Char) :=
  match s with
  | '.' :: r =>
    match r.takeWhile isDigit with
    | [] => none
    | ds => some (ds, r.dropWhile isDigit)
  | _ => none

/-- The exponent, if its letter and sign are followed by a digit. -/
def exponentPart (s : List Char) : Option (Int × List Char) :=
  let signed (negative : Bool) (r : List Char) : Option (Int × List Char) :=
    match r.takeWhile isDigit with
    | [] => none
    | ds =>
      let n : Int := decimalNumber ds
      some (if negative then -n else n, r.dropWhile isDigit)
  match s with
  | c :: r =>
    if c = 'e' ∨ c = 'E' then
      match r with
      | '-' :: r' => signed true r'
      | '+' :: r' => signed false r'
      | _ => signed false r
    else none
  | [] => none

/-- A numeral.  A point or an exponent that is not complete is left unread. -/
def number (s : List Char) : Except Refusal (Value × List Char) :=
  let (negative, r) := match s with | '-' :: r => (true, r) | _ => (false, s)
  match wholeDigits r with
  | ([], _) => failAt .valueExpected s
  | (whole, r₁) =>
    let (fraction, r₂) := (fractionDigits r₁).getD ([], r₁)
    match fraction, exponentPart r₂ with
    | [], none =>
      if Numeral.digitLimit < whole.length then failAt (.longInteger whole.length) s
      else
        let n : Int := decimalNumber whole
        .ok (.int (if negative then -n else n), r₁)
    | _, e =>
      let (power, r₃) := e.getD (0, r₂)
      .ok (.float (.ofDecimal negative (decimalNumber (whole ++ fraction))
        (power - fraction.length)), r₃)

/-! ### Values -/

/-- The words that stand for values. -/
def words : List (String × Value) :=
  [("null", .null), ("true", .bool true), ("false", .bool false), ("NaN", .float .nan),
   ("Infinity", .float (.infinite false)), ("-Infinity", .float (.infinite true))]

/-- A word at the start of a text. -/
def word? (s : List Char) : Option (Value × List Char) :=
  words.findSome? fun (w, v) =>
    if w.toList.isPrefixOf s then some (v, s.drop w.length) else none

/-- Containers stand inside one another at most this often. -/
def nestingLimit : Nat := 988

/-- The number of containers that may still be opened inside a container which is opened
    here. -/
def enter (room : Nat) (s : List Char) : Except Refusal Nat :=
  match room with
  | 0 => failAt .tooDeep s
  | room + 1 => .ok room

mutual

/-- A value at the start of a text; `room` containers may be opened inside one another. -/
def value : Nat → Nat → List Char → Except Refusal (Value × List Char)
  | 0, _, s => failAt .valueExpected s
  | fuel + 1, room, s =>
    match s with
    | '\x22' :: r => do
      let (t, r') ← string r
      return (.str t, r')
    | '{' :: r => do
      let room ← enter room s
      match skipGap r with
      | '}' :: r' => return (.map [], r')
      | r' =>
        let (es, rest) ← members fuel room r'
        return (.map (Value.entriesOf es), rest)
    | '[' :: r => do
      let room ← enter room s
      match skipGap r with
      | ']' :: r' => return (.list [], r')
      | r' =>
        let (xs, rest) ← elements fuel room r'
        return (.list xs, rest)
    | _ =>
      match word? s with
      | some found => .ok found
      | none => number s

/-- The members of an object, read from the first name on. -/
def members : Nat → Nat → List Char → Except Refusal (List (Value × Value) × List Char)
  | 0, _, s => failAt .nameExpected s
  | fuel + 1, room, s =>
    match s with
    | '\x22' :: r => do
      let (name, r₁) ← string r
      match skipGap r₁ with
      | ':' :: r₂ =>
        let (v, r₃) ← value fuel room (skipGap r₂)
        match skipGap r₃ with
        | '}' :: r₄ => return ([(.str name, v)], r₄)
        | ',' :: r₄ =>
          let (es, rest) ← members fuel room (skipGap r₄)
          return ((.str name, v) :: es, rest)
        | r₄ => failAt .commaExpected r₄
      | r₂ => failAt .colonExpected r₂
    | _ => failAt .nameExpected s

/-- The elements of an array, read from the first one on. -/
def elements : Nat → Nat → List Char → Except Refusal (List Value × List Char)
  | 0, _, s => failAt .valueExpected s
  | fuel + 1, room, s => do
    let (v, r₁) ← value fuel room s
    match skipGap r₁ with
    | ']' :: r₂ => return ([v], r₂)
    | ',' :: r₂ =>
      let (xs, rest) ← elements fuel room (skipGap r₂)
      return (v :: xs, rest)
    | r₂ => failAt .commaExpected r₂

end

/-- The document that a text holds.  A step into a container takes its bracket, and a step to
    the next item a comma, so twice the length of the text bounds the recursion. -/
def read (text : String) : Except ReadError Value :=
  let s := text.toList
  let placed (failure : Refusal) : ReadError := .at s failure.1 (s.length - failure.2)
  match s with
  | c :: _ =>
    if c.toNat = 0xfeff then .error (.at s .byteOrderMark 0)
    else
      match value (2 * s.length + 2) nestingLimit (skipGap s) with
      | .error failure => .error (placed failure)
      | .ok (v, rest) =>
        match skipGap rest with
        | [] => .ok v
        | extra => .error (placed (.extraData, extra.length))
  | [] => .error (.at s .valueExpected 0)

end ApiNodes.Json
