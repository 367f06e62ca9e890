namespace ApiNodes.Base64

/-!
# Base64

Bytes written as text, four characters for three bytes.  Reading passes over characters
outside the alphabet; the padding that completes a group of four ends the text.
-/

/-- The value of a character of the alphabet. -/
def value? (c : Char) : Option Nat :=
  if 'A' ≤ c ∧ c ≤ 'Z' then some (c.toNat - 65)
  else if 'a' ≤ c ∧ c ≤ 'z' then some (c.toNat - 71)
  else if '0' ≤ c ∧ c ≤ '9' then some (c.toNat + 4)
  else if c = '+' then some 62
  else if c = '/' then some 63
  else none

/-- The state of reading a group: the values read, the last first, and the pads since. -/
structure Group where
  values : List Nat := []
  pads : Nat := 0

/-- The bytes of the values of a group, the last value first. -/
def Group.bytes (g : Group) : List UInt8 :=
  match g.values with
  | [b, a] => [(a * 4 + b / 16).toUInt8]
  | [c, b, a] => [(a * 4 + b / 16).toUInt8, (b % 16 * 16 + c / 4).toUInt8]
  | [d, c, b, a] =>
    [(a * 4 + b / 16).toUInt8, (b % 16 * 16 + c / 4).toUInt8, (c % 4 * 64 + d).toUInt8]
  | _ => []

/-- The bytes of a text after a group that is not complete. -/
def decodeFrom (g : Group) : List Char → Option (List UInt8)
  | [] => if g.values.isEmpty then some [] else none
  | c :: r =>
    if c = '=' then
      if g.values.length < 2 then decodeFrom g r
      else if 4 ≤ g.values.length + g.pads + 1 then some g.bytes
      else decodeFrom { g with pads := g.pads + 1 } r
    else
      match value? c with
      | none => decodeFrom g r
      | some v =>
        let full : Group := { values := v :: g.values }
        if full.values.length = 4 then (full.bytes ++ ·) <$> decodeFrom {} r
        else decodeFrom full r

/-- The bytes that a text stands for. -/
def decode? (text : List Char) : Option (List UInt8) := decodeFrom {} text

end ApiNodes.Base64
