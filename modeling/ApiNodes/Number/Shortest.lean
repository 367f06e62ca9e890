import ApiNodes.Number.Binary64

namespace ApiNodes.Binary64

/-!
# Shortest decimal text

A number is written with the fewest significant digits that read back as it, and of those
with the digits nearest to it.  `Layout` says where positional notation ends and how the
numbers that are not finite are spelled.
-/

/-- The least `e` with `num / den < 10 ^ e`, for a positive quotient. -/
def decimalPoint (num den : Nat) : Int :=
  let guess := Int.fdiv (((num.log2 : Int) - den.log2) * 30103) 100000
  let below (e : Int) : Bool :=
    if 0 ≤ e then decide (num < den * tenTo e.toNat) else decide (num * tenTo (-e).toNat < den)
  ([guess - 1, guess, guess + 1].find? below).getD (guess + 2)

/-- The nearest of the digit strings on the grid `10 ^ unit` that round to the number
    `value / 4 · 2 ^ …`: the interval `(low, high)` holds what rounds to it, its ends too
    when `closed`.  All three are given over one denominator. -/
def onGrid? (value low high den : Nat) (closed : Bool) (unit : Int) : Option Nat :=
  let up := if 0 ≤ unit then tenTo unit.toNat else 1
  let down := if 0 ≤ unit then 1 else tenTo (-unit).toNat
  let cell := den * up
  let inside (d : Nat) : Bool :=
    let p := d * cell
    if closed then decide (low * down ≤ p ∧ p ≤ high * down)
    else decide (low * down < p ∧ p < high * down)
  let d := value * down / cell
  let rest := value * down % cell
  match inside d && d != 0, inside (d + 1) with
  | true, true =>
    some (if 2 * rest < cell ∨ (2 * rest = cell ∧ d % 2 = 0) then d else d + 1)
  | true, false => some d
  | false, true => some (d + 1)
  | false, false => none

/-- Digits and the power of ten of the last one, for a finite number other than zero. -/
def shortestDigits (m : Nat) (q : Int) : Nat × Int :=
  let num := m * twoTo q.toNat
  let den := twoTo (-q).toNat
  let gap := twoTo q.toNat
  let value := 4 * num
  let low := if m = twoTo 52 ∧ -1074 < q then value - gap else value - 2 * gap
  let high := value + 2 * gap
  let point := decimalPoint num den
  let tries := (List.range 17).map fun (k : Nat) => point - (k : Int) - 1
  match tries.findSome? fun unit =>
      (onGrid? value low high (4 * den) (m % 2 == 0) unit).map fun d => (d, unit) with
  | some found => found
  | none => (num, 0)

/-- How decimal texts of numbers look. -/
structure Layout where
  /-- Positional notation starts at this power of ten of the first digit … -/
  positionalFrom : Int
  /-- … and ends before this one. -/
  positionalBelow : Int
  /-- The spelling of the number that is none. -/
  nan : String
  /-- The spelling of the positive infinity. -/
  infinity : String

/-- The exponent: its sign and at least two digits. -/
def exponentText (e : Int) : String :=
  let digits := toString e.natAbs
  "e" ++ (if e < 0 then "-" else "+") ++ (if digits.length < 2 then "0" ++ digits else digits)

/-- The text of a number without its sign. -/
def magnitudeText (layout : Layout) (m : Nat) (q : Int) : String :=
  if m = 0 then "0.0"
  else
    let (d, unit) := shortestDigits m q
    let written := Nat.toDigits 10 d
    let digits := (written.reverse.dropWhile (· == '0')).reverse
    let lead : Int := written.length + unit - 1
    if layout.positionalFrom ≤ lead ∧ lead < layout.positionalBelow then
      if lead < 0 then
        .ofList ('0' :: '.' :: List.replicate ((-lead).toNat - 1) '0' ++ digits)
      else
        let whole := digits.take (lead.toNat + 1)
        let part := digits.drop (lead.toNat + 1)
        .ofList (whole ++ List.replicate (lead.toNat + 1 - whole.length) '0' ++ '.' ::
          (if part.isEmpty then ['0'] else part))
    else
      match digits with
      | [] => "0.0"
      | [c] => .ofList [c] ++ exponentText lead
      | c :: r => .ofList (c :: '.' :: r) ++ exponentText lead

/-- The decimal text of a number. -/
def text (layout : Layout) : Binary64 → String
  | .nan => layout.nan
  | .infinite negative => (if negative then "-" else "") ++ layout.infinity
  | .finite negative m q => (if negative then "-" else "") ++ magnitudeText layout m q

/-- Numbers in messages: positional from `1e-4` up to below `1e16`. -/
def plainLayout : Layout := ⟨-4, 16, "nan", "inf"⟩

/-- Numbers in JSON files: the same notation, with the spellings that its readers accept. -/
def jsonLayout : Layout := ⟨-4, 16, "NaN", "Infinity"⟩

end ApiNodes.Binary64
