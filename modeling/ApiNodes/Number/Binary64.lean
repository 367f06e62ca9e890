namespace ApiNodes

/-!
# Binary floating-point numbers

The numbers of the 64-bit binary format, each finite one as an exact `± m · 2 ^ q`.  A
quotient of natural numbers is rounded to the nearest of them, a tie to the even
significand; decimal numerals and sums and products of numbers go through that rounding.
-/

/-- A number of the 64-bit binary format.  The rounding below only builds finite numbers
    with `m < 2 ^ 53`, `-1074 ≤ q ≤ 971` and `2 ^ 52 ≤ m` unless `q = -1074`. -/
inductive Binary64
  | finite (negative : Bool) (m : Nat) (q : Int)
  | infinite (negative : Bool)
  | nan
  deriving DecidableEq, Repr, Inhabited

namespace Binary64

/-- The power of two. -/
def twoTo (k : Nat) : Nat := Nat.pow 2 k

/-- The power of ten. -/
def tenTo (k : Nat) : Nat := Nat.pow 10 k

/-- A zero of either sign. -/
def zero (negative : Bool) : Binary64 := .finite negative 0 (-1074)

/-- The quotient rounded to the nearest natural number, a half to the even one. -/
def roundDiv (num den : Nat) : Nat :=
  let floor := num / den
  let twice := 2 * (num % den)
  if twice < den then floor
  else if den < twice then floor + 1
  else if floor % 2 = 0 then floor else floor + 1

/-- `num / den · 2 ^ -q` as a quotient of natural numbers. -/
def scaled (num den : Nat) (q : Int) : Nat × Nat :=
  if 0 ≤ q then (num, den * twoTo q.toNat) else (num * twoTo (-q).toNat, den)

/-- The number nearest to `± num / den`. -/
def ofRatio (negative : Bool) (num den : Nat) : Binary64 :=
  if num = 0 ∨ den = 0 then zero negative
  else
    let low : Int := max ((num.log2 : Int) - den.log2 - 53) (-1074)
    let (n₀, d₀) := scaled num den low
    let q := if n₀ / d₀ < twoTo 53 then low else low + 1
    let (n, d) := scaled num den q
    let m := roundDiv n d
    let (m, q) := if m = twoTo 53 then (twoTo 52, q + 1) else (m, q)
    if 971 < q then .infinite negative else .finite negative m q

/-- The number nearest to `± digits · 10 ^ exponent`.  Exponents far outside the format's
    range are settled by the count of digits. -/
def ofDecimal (negative : Bool) (digits : Nat) (exponent : Int) : Binary64 :=
  let places : Int := (Nat.toDigits 10 digits).length + exponent
  if digits = 0 then zero negative
  else if 310 < places then .infinite negative
  else if places < -330 then zero negative
  else if 0 ≤ exponent then ofRatio negative (digits * tenTo exponent.toNat) 1
  else ofRatio negative digits (tenTo (-exponent).toNat)

/-- The number nearest to `n · 2 ^ q`; a zero takes the given sign. -/
def ofDyadic (zeroNegative : Bool) (n : Int) (q : Int) : Binary64 :=
  let negative := if n = 0 then zeroNegative else decide (n < 0)
  if 0 ≤ q then ofRatio negative (n.natAbs * twoTo q.toNat) 1
  else ofRatio negative n.natAbs (twoTo (-q).toNat)

/-- The number with the sign folded into the significand. -/
def signedSignificand (negative : Bool) (m : Nat) : Int :=
  if negative then -(m : Int) else m

/-- The rounded sum. -/
def add : Binary64 → Binary64 → Binary64
  | .nan, _ | _, .nan => .nan
  | .infinite a, .infinite b => if a = b then .infinite a else .nan
  | .infinite a, _ => .infinite a
  | _, .infinite b => .infinite b
  | .finite a m p, .finite b n q =>
    let low := min p q
    ofDyadic (a && b)
      (signedSignificand a (m * twoTo (p - low).toNat) +
        signedSignificand b (n * twoTo (q - low).toNat))
      low

/-- The number nearest to a natural number. -/
def ofNat (n : Nat) : Binary64 := ofRatio false n 1

/-- The rounded product. -/
def mul : Binary64 → Binary64 → Binary64
  | .nan, _ | _, .nan => .nan
  | .finite a m p, .finite b n q =>
    ofDyadic (a != b) (signedSignificand a m * signedSignificand b n) (p + q)
  | .finite _ 0 _, .infinite _ | .infinite _, .finite _ 0 _ => .nan
  | .finite a _ _, .infinite b | .infinite a, .finite b _ _ | .infinite a, .infinite b =>
    .infinite (a != b)

/-- The number with the other sign. -/
def negate : Binary64 → Binary64
  | .nan => .nan
  | .infinite a => .infinite (!a)
  | .finite a m q => .finite (!a) m q

/-- A zero of either sign. -/
def isZero : Binary64 → Bool
  | .finite _ 0 _ => true
  | _ => false

/-- The integer a number stands for, if it is whole. -/
def toInt? : Binary64 → Option Int
  | .finite negative m q =>
    if 0 ≤ q then some (signedSignificand negative (m * twoTo q.toNat))
    else if m % twoTo (-q).toNat = 0 then
      some (signedSignificand negative (m / twoTo (-q).toNat))
    else none
  | _ => none

end Binary64
end ApiNodes
