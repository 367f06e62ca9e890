namespace ApiNodes.Text

/-!
# Surrogates

Characters beyond the first plane are written as two units of 16 bits, a high surrogate and
a low one.  A surrogate on its own is no character.
-/

/-- A unit that begins a pair. -/
def isHighSurrogate (n : Nat) : Bool := decide (0xd800 ≤ n ∧ n < 0xdc00)

/-- A unit that ends a pair. -/
def isLowSurrogate (n : Nat) : Bool := decide (0xdc00 ≤ n ∧ n < 0xe000)

/-- The character of a pair. -/
def ofPair (high low : Nat) : Char :=
  Char.ofNat (0x10000 + (high - 0xd800) * 0x400 + (low - 0xdc00))

/-- The character of a code; the replacement character for a surrogate. -/
def ofCode (n : Nat) : Char :=
  if isHighSurrogate n || isLowSurrogate n then Char.ofNat 0xfffd else Char.ofNat n

/-- The characters of codes, among which a pair of surrogates counts as one. -/
def ofCodes : List Nat → List Char
  | [] => []
  | [n] => [ofCode n]
  | n :: m :: r =>
    if isHighSurrogate n && isLowSurrogate m then ofPair n m :: ofCodes r
    else ofCode n :: ofCodes (m :: r)

/-- The characters of units of 16 bits; nothing if a surrogate is on its own. -/
def ofUnits? : List Nat → Option (List Char)
  | [] => some []
  | [n] => if isHighSurrogate n || isLowSurrogate n then none else some [Char.ofNat n]
  | n :: m :: r =>
    if isHighSurrogate n then
      if isLowSurrogate m then (ofPair n m :: ·) <$> ofUnits? r else none
    else if isLowSurrogate n then none
    else (Char.ofNat n :: ·) <$> ofUnits? (m :: r)

end ApiNodes.Text
