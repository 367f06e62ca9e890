import ApiNodes.Number.Binary64
import ApiNodes.Text.Blank
import ApiNodes.Text.Digits

namespace ApiNodes.Numeral

/-!
# Reading numerals

Integers in a given base and decimal fractions, as they are written by hand: with white
space around them, a sign, the digits of any script and single underscores between digits.
-/

/-- The ASCII form of a numeral: digits of all scripts as ASCII digits. -/
def plainDigits (s : List Char) : List Char :=
  s.map fun c =>
    match Text.digitValue? c with
    | some v => Char.ofNat (48 + v)
    | none => c

/-- The value of a digit in bases up to sixteen. -/
def digit? (base : Nat) (c : Char) : Option Nat :=
  let value :=
    if '0' ≤ c ∧ c ≤ '9' then some (c.toNat - 48)
    else if 'a' ≤ c ∧ c ≤ 'f' then some (c.toNat - 87)
    else if 'A' ≤ c ∧ c ≤ 'F' then some (c.toNat - 55)
    else none
  value.filter (· < base)

/-- Drop underscores that have a digit on both sides; other underscores stay. -/
def joinDigits (isDigit : Char → Bool) : List Char → List Char
  | a :: '_' :: b :: r =>
    if isDigit a && isDigit b then a :: joinDigits isDigit (b :: r)
    else a :: joinDigits isDigit ('_' :: b :: r)
  | a :: r => a :: joinDigits isDigit r
  | [] => []

/-- The sign of a numeral and the text after it. -/
def signed : List Char → Bool × List Char
  | '-' :: r => (true, r)
  | '+' :: r => (false, r)
  | s => (false, s)

/-- The mark that a numeral may begin with, by its base. -/
def markOf (base : Nat) : List Char :=
  if base = 2 then ['b', 'B'] else if base = 8 then ['o', 'O'] else if base = 16 then ['x', 'X']
  else []

/-- The text after the mark of the base.  An underscore may stand behind the mark. -/
def afterMark (base : Nat) : List Char → List Char
  | '0' :: m :: r =>
    if m ∈ markOf base then
      match r with
      | '_' :: d :: r' => if (digit? base d).isSome then d :: r' else '_' :: d :: r'
      | r => r
    else '0' :: m :: r
  | s => s

/-- Decimal integers have at most this many digits. -/
def digitLimit : Nat := 4300

/-- The integer that a text stands for. -/
def integer? (base : Nat) (s : List Char) : Option Int :=
  let (negative, r) := signed (plainDigits (Text.trimChars s))
  let digits := joinDigits (fun c => (digit? base c).isSome) (afterMark base r)
  if digits.isEmpty || (base == 10 && digitLimit < digits.length) then none
  else
    (digits.foldl (fun n c => do return (← n) * base + (← digit? base c)) (some 0)).map
      fun n => if negative then -(n : Int) else n

/-- The words for numbers that no digits stand for. -/
def wordNumber? (negative : Bool) (s : List Char) : Option Binary64 :=
  let w := s.map Char.toLower
  if w = "inf".toList ∨ w = "infinity".toList then some (.infinite negative)
  else if w = "nan".toList then some .nan
  else none

/-- An ASCII digit. -/
def isDigit (c : Char) : Bool := decide ('0' ≤ c ∧ c ≤ '9')

/-- The value of ASCII digits. -/
def ofDigits (digits : List Char) : Nat := digits.foldl (fun n c => n * 10 + (c.toNat - 48)) 0

/-- The power of ten at the end of a numeral; none stands for zero. -/
def exponent? : List Char → Option Int
  | [] => some 0
  | e :: r =>
    let (negative, digits) := signed r
    if (e = 'e' ∨ e = 'E') ∧ digits ≠ [] ∧ digits.all isDigit then
      some (if negative then -(ofDigits digits : Int) else ofDigits digits)
    else none

/-- The digits after the point, if there is one. -/
def fraction : List Char → List Char × List Char
  | '.' :: r => (r.takeWhile isDigit, r.dropWhile isDigit)
  | s => ([], s)

/-- The number that a text stands for, rounded to the nearest that the format holds. -/
def float? (s : List Char) : Option Binary64 :=
  let (negative, r) := signed (joinDigits isDigit (plainDigits (Text.trimChars s)))
  match wordNumber? negative r with
  | some x => some x
  | none =>
    let whole := r.takeWhile isDigit
    let (part, r) := fraction (r.dropWhile isDigit)
    if whole.isEmpty && part.isEmpty then none
    else
      (exponent? r).map fun e =>
        .ofDecimal negative (ofDigits (whole ++ part)) (e - part.length)

end ApiNodes.Numeral
