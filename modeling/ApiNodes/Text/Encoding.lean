import ApiNodes.Text.Surrogates

namespace ApiNodes.Text

/-!
# Encodings

A JSON text begins with two characters of ASCII, so that the zeros among its first four
bytes tell how the text is encoded.
-/

/-- An encoding: in bytes, or in words of two or four bytes with either end first. -/
inductive Encoding
  | utf8
  | utf16 (highFirst : Bool)
  | utf32 (highFirst : Bool)
  deriving DecidableEq, Repr

/-- The encoding that the first bytes of a JSON text tell, if they are those of one. -/
def encodingOf? (data : List UInt8) : Option Encoding :=
  match data.map (· == 0) with
  | false :: false :: false :: false :: _ => some .utf8
  | true :: false :: true :: false :: _ => some (.utf16 true)
  | false :: true :: false :: true :: _ => some (.utf16 false)
  | true :: true :: true :: false :: _ => some (.utf32 true)
  | false :: true :: true :: true :: _ => some (.utf32 false)
  | _ => none

/-- The number that bytes stand for. -/
def wordOf (highFirst : Bool) (bytes : List UInt8) : Nat :=
  (if highFirst then bytes else bytes.reverse).foldl (fun n b => n * 256 + b.toNat) 0

/-- The words of two bytes. -/
def doubles? (highFirst : Bool) : List UInt8 → Option (List Nat)
  | [] => some []
  | a :: b :: r => (wordOf highFirst [a, b] :: ·) <$> doubles? highFirst r
  | _ => none

/-- The words of four bytes. -/
def quadruples? (highFirst : Bool) : List UInt8 → Option (List Nat)
  | [] => some []
  | a :: b :: c :: d :: r => (wordOf highFirst [a, b, c, d] :: ·) <$> quadruples? highFirst r
  | _ => none

/-- The character of a code. -/
def codeChar? (n : Nat) : Option Char :=
  if n.isValidChar then some (Char.ofNat n) else none

/-- The text that bytes encode. -/
def Encoding.decode? (e : Encoding) (data : List UInt8) : Option String :=
  match e with
  | utf8 => String.fromUTF8? ⟨data.toArray⟩
  | utf16 highFirst => ((doubles? highFirst data).bind ofUnits?).map String.ofList
  | utf32 highFirst =>
    ((quadruples? highFirst data).bind fun ws => ws.mapM codeChar?).map String.ofList

end ApiNodes.Text
