import ApiNodes.Document.Json.Reader
import ApiNodes.Text.Pieces

namespace ApiNodes.Yaml

/-!
# Tags of plain scalars

A plain scalar has no tag of its own: its text decides of what kind it is.  Numbers, words
for truth values and for nothing, and moments are told apart here, and read later.
-/

/-- The tag of a standard kind of node. -/
def standardTag (name : String) : String := "tag:yaml.org,2002:" ++ name

/-! ### Numbers -/

/-- A digit or an underscore. -/
def isDigitOrUnderscore (c : Char) : Bool := Json.isDigit c || c == '_'

/-- The text after an optional sign. -/
def unsigned : List Char → List Char
  | '-' :: r | '+' :: r => r
  | s => s

/-- The pieces between colons. -/
def colonPieces (s : List Char) : List (List Char) :=
  s.splitOn ':'

/-- A number below sixty, written with one or two digits. -/
def isSixtieth : List Char → Bool
  | [c] => Json.isDigit c
  | [c, d] => decide ('0' ≤ c ∧ c ≤ '5') && Json.isDigit d
  | _ => false

/-- A number in base sixty: a first piece and one more at least. -/
def isSixty (isFirst : List Char → Bool) (s : List Char) : Bool :=
  match colonPieces s with
  | first :: second :: rest => isFirst first && (second :: rest).all isSixtieth
  | _ => false

/-- Digits that do not begin with zero, with underscores among them. -/
def isPositive : List Char → Bool
  | c :: r => decide ('1' ≤ c ∧ c ≤ '9') && r.all isDigitOrUnderscore
  | [] => false

/-- An integer in base two, eight, ten, sixteen or sixty. -/
def isInteger (s : List Char) : Bool :=
  let s := unsigned s
  isPositive s || isSixty isPositive s ||
    match s with
    | ['0'] => true
    | '0' :: 'b' :: r => !r.isEmpty && r.all fun c => c == '0' || c == '1' || c == '_'
    | '0' :: 'x' :: r => !r.isEmpty && r.all fun c => (Json.hexValue? c).isSome || c == '_'
    | '0' :: r => !r.isEmpty && r.all fun c => decide ('0' ≤ c ∧ c ≤ '7') || c == '_'
    | _ => false

/-- An optional exponent, which has a sign. -/
def isExponent : List Char → Bool
  | [] => true
  | e :: sign :: r =>
    (e == 'e' || e == 'E') && (sign == '-' || sign == '+') && !r.isEmpty && r.all Json.isDigit
  | _ => false

/-- A digit, then digits and underscores. -/
def isDigits : List Char → Bool
  | c :: r => Json.isDigit c && r.all isDigitOrUnderscore
  | [] => false

/-- A number with a point. -/
def isPointed (s : List Char) : Bool :=
  let whole := s.takeWhile isDigitOrUnderscore
  match s.dropWhile isDigitOrUnderscore with
  | '.' :: r => isDigits whole && isExponent (r.dropWhile isDigitOrUnderscore)
  | _ => false

/-- A number with a point in base sixty. -/
def isPointedSixty (s : List Char) : Bool :=
  match s.dropWhile (· != '.') with
  | '.' :: r => isSixty isDigits (s.takeWhile (· != '.')) && r.all isDigitOrUnderscore
  | _ => false

/-- A floating-point number. -/
def isFloat (s : List Char) : Bool :=
  let u := unsigned s
  isPointed u || isPointedSixty u ||
    [".inf", ".Inf", ".INF"].any (·.toList == u) || [".nan", ".NaN", ".NAN"].any (·.toList == s) ||
    match s with
    | '.' :: c :: r => Json.isDigit c && isExponent (r.dropWhile isDigitOrUnderscore)
    | _ => false

/-! ### Words -/

/-- The words for truth values. -/
def truthWords : List (String × Bool) :=
  [("yes", true), ("no", false), ("true", true), ("false", false), ("on", true), ("off", false)]

/-- A word in small letters, with a capital initial, or in capital letters. -/
def spellings (word : String) : List (List Char) :=
  match word.toList with
  | [] => []
  | c :: r => [c :: r, c.toUpper :: r, (c :: r).map Char.toUpper]

/-! ### Moments -/

/-- A moment as written: its numbers as digits, and its offset. -/
structure Moment where
  year : List Char
  month : List Char
  day : List Char
  /-- Hour, minute, second and fraction. -/
  time : Option (List Char × List Char × List Char × List Char) := none
  /-- Sign, hours and minutes of the offset; `Z` has no sign. -/
  offset : Option (Option Bool × List Char × List Char) := none

/-- Between `least` and `most` digits. -/
def digits? (least most : Nat) (s : List Char) : Option (List Char × List Char) :=
  let ds := (s.take most).takeWhile Json.isDigit
  if least ≤ ds.length then some (ds, s.drop ds.length) else none

/-- The text after a character. -/
def after? (c : Char) : List Char → Option (List Char)
  | d :: r => if c = d then some r else none
  | [] => none

/-- The offset of a moment, up to the end of the text. -/
def offset? (s : List Char) : Option (Option (Option Bool × List Char × List Char)) :=
  match s.dropWhile fun c => c == ' ' || c == '\t' with
  | [] => if s.isEmpty then some none else none
  | ['Z'] => some (some (none, [], []))
  | sign :: r =>
    if sign = '-' ∨ sign = '+' then do
      let (hours, r) ← digits? 1 2 r
      match r with
      | [] => some (some (some (sign == '-'), hours, []))
      | _ =>
        let (minutes, r) ← digits? 2 2 (← after? ':' r)
        if r.isEmpty then some (some (some (sign == '-'), hours, minutes)) else none
    else none

/-- The time of a moment after its date. -/
def time? (s : List Char) :
    Option ((List Char × List Char × List Char × List Char) × List Char) := do
  let s ←
    match s with
    | 'T' :: r | 't' :: r => some r
    | ' ' :: _ | '\t' :: _ => some (s.dropWhile fun c => c == ' ' || c == '\t')
    | _ => none
  let (hour, s) ← digits? 1 2 s
  let (minute, s) ← digits? 2 2 (← after? ':' s)
  let (second, s) ← digits? 2 2 (← after? ':' s)
  match s with
  | '.' :: r => return ((hour, minute, second, r.takeWhile Json.isDigit), r.dropWhile Json.isDigit)
  | _ => return ((hour, minute, second, []), s)

/-- A date, or a date with a time. -/
def moment? (s : List Char) : Option Moment := do
  let (year, s) ← digits? 4 4 s
  let (month, s) ← digits? 1 2 (← after? '-' s)
  let (day, s) ← digits? 1 2 (← after? '-' s)
  if s.isEmpty then return { year, month, day }
  else
    let (time, s) ← time? s
    return { year, month, day, time, offset := ← offset? s }

/-- A plain scalar is a moment if it has a time, or two digits for its month and its day. -/
def isMoment (s : List Char) : Bool :=
  match moment? s with
  | none => false
  | some m => m.time.isSome || (m.month.length == 2 && m.day.length == 2)

/-! ### Tags -/

/-- The text without a line feed at its end, unless the line feed is all there is. -/
def withoutFinalBreak (s : List Char) : List Char :=
  if s = ['\n'] then s else Text.dropTail ['\n'] s

/-- The tag of a plain scalar.  A line feed at its end does not count. -/
def plainTag (text : String) : String :=
  let s := withoutFinalBreak text.toList
  let isWord (w : String) : Bool := s == w.toList
  standardTag <|
    if truthWords.any fun (w, _) => (spellings w).contains s then "bool"
    else if isFloat s then "float"
    else if isInteger s then "int"
    else if isWord "<<" then "merge"
    else if isWord "" || isWord "~" || (spellings "null").contains s then "null"
    else if isMoment s then "timestamp"
    else if isWord "=" then "value"
    else if isWord "!" || isWord "&" || isWord "*" then "yaml"
    else "str"

end ApiNodes.Yaml
