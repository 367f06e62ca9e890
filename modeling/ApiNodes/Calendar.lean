namespace ApiNodes

/-!
# Calendar

Dates of the proleptic Gregorian calendar, times of day with microseconds, and offsets
from universal time; their written forms; and the date of a count of microseconds since
1970.
-/

/-- A date. -/
structure Date where
  year : Nat
  month : Nat
  day : Nat
  deriving DecidableEq, Repr, Inhabited

/-- A date with a time of day, and its offset from universal time in minutes if it has
    one. -/
structure Timestamp where
  date : Date
  hour : Nat
  minute : Nat
  second : Nat
  micro : Nat
  offset : Option Int
  deriving DecidableEq, Repr, Inhabited

/-! ### Days -/

/-- Every fourth year is a leap year, but of the full centuries only every fourth. -/
def isLeapYear (y : Nat) : Bool := (y % 4 == 0 && y % 100 != 0) || y % 400 == 0

/-- The length of a month. -/
def daysInMonth (y m : Nat) : Nat :=
  if m = 2 then (if isLeapYear y then 29 else 28)
  else if m = 4 ∨ m = 6 ∨ m = 9 ∨ m = 11 then 30
  else 31

/-- A date that exists, in the years 1 to 9999. -/
def Date.isValid (d : Date) : Bool :=
  decide (1 ≤ d.year ∧ d.year ≤ 9999 ∧ 1 ≤ d.month ∧ d.month ≤ 12 ∧ 1 ≤ d.day ∧
    d.day ≤ daysInMonth d.year d.month)

/-- A timestamp that exists: its offset is less than a day. -/
def Timestamp.isValid (t : Timestamp) : Bool :=
  t.date.isValid && decide (t.hour < 24 ∧ t.minute < 60 ∧ t.second < 60 ∧ t.micro < 1000000) &&
    t.offset.all fun o => decide (-1440 < o ∧ o < 1440)

/-- The date of a count of days since 1970-01-01, by eras of 400 years that begin in March. -/
def Date.ofDays (days : Int) : Date :=
  let z := days + 719468
  let era := Int.fdiv z 146097
  let doe := (z - era * 146097).toNat
  let yoe := (doe - doe / 1460 + doe / 36524 - doe / 146096) / 365
  let doy := doe - (365 * yoe + yoe / 4 - yoe / 100)
  let mp := (5 * doy + 2) / 153
  let month := if mp < 10 then mp + 3 else mp - 9
  let year := (yoe : Int) + era * 400 + (if month ≤ 2 then 1 else 0)
  ⟨year.toNat, month, doy - (153 * mp + 2) / 5 + 1⟩

/-- The count of days from 1970-01-01 to a date. -/
def Date.toDays (d : Date) : Int :=
  let y : Int := (d.year : Int) - (if d.month ≤ 2 then 1 else 0)
  let era := Int.fdiv y 400
  let yoe := y - era * 400
  let mp : Int := if d.month ≤ 2 then (d.month : Int) + 9 else (d.month : Int) - 3
  let doy := (153 * mp + 2) / 5 + (d.day : Int) - 1
  era * 146097 + (yoe * 365 + yoe / 4 - yoe / 100 + doy) - 719468

/-- The timestamp of a count of microseconds since 1970, in universal time. -/
def Timestamp.ofMicros (n : Int) : Timestamp :=
  let seconds := Int.fdiv n 1000000
  let days := Int.fdiv seconds 86400
  let inDay := (seconds - days * 86400).toNat
  ⟨.ofDays days, inDay / 3600, inDay / 60 % 60, inDay % 60, (n - seconds * 1000000).toNat, some 0⟩

/-- Microseconds since the year 0, in universal time when the timestamp has an offset. -/
def Timestamp.instant (t : Timestamp) : Int :=
  (((t.date.toDays * 24 + t.hour) * 60 + t.minute - t.offset.getD 0) * 60 + t.second) * 1000000 +
    t.micro

/-! ### Written forms -/

/-- A number with at least `width` digits. -/
def padded (width n : Nat) : String :=
  let digits := Nat.toDigits 10 n
  .ofList (List.replicate (width - digits.length) '0' ++ digits)

/-- `2024-05-01` -/
def Date.iso (d : Date) : String :=
  padded 4 d.year ++ "-" ++ padded 2 d.month ++ "-" ++ padded 2 d.day

/-- `+02:00` -/
def offsetText (minutes : Int) : String :=
  let n := minutes.natAbs
  (if minutes < 0 then "-" else "+") ++ padded 2 (n / 60) ++ ":" ++ padded 2 (n % 60)

/-- The date and the time with a separator between them; microseconds only when there are
    any, and the offset at the end. -/
def Timestamp.written (separator : String) (t : Timestamp) : String :=
  t.date.iso ++ separator ++ padded 2 t.hour ++ ":" ++ padded 2 t.minute ++ ":" ++
    padded 2 t.second ++ (if t.micro = 0 then "" else "." ++ padded 6 t.micro) ++
    (match t.offset with | none => "" | some o => offsetText o)

/-- `2024-05-01T10:20:30+00:00` -/
def Timestamp.iso (t : Timestamp) : String := t.written "T"

/-- The stamp of a moment in universal time: its written form with a final `Z`. -/
def stamp (micros : Int) : String :=
  { Timestamp.ofMicros micros with offset := none }.iso ++ "Z"

end ApiNodes
