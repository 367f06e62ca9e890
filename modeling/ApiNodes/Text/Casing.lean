import ApiNodes.Text.CaseTable

namespace ApiNodes.Text

/-!
# Case conversion

Upper case, lower case and case folding with the full mappings: one character may become
several, and the lower case of a capital sigma depends on its neighbours.  On ASCII each
is the letter-by-letter map.
-/

/-- The image of a code point under a table: its expansion, else its run, else itself. -/
def imageOf (expansions : List (Nat × List Nat)) (runs : List CaseRun) (n : Nat) : List Char :=
  match expansions.lookup n with
  | some image => image.map Char.ofNat
  | none => [Char.ofNat ((runs.findSome? fun r => r.apply? n).getD n)]

/-- The upper case of a character. -/
def upperChar (c : Char) : List Char :=
  if c.toNat < 128 then [c.toUpper] else imageOf upperExpansions upperRuns c.toNat

/-- The lower case of a character that stands alone. -/
def lowerChar (c : Char) : List Char :=
  if c.toNat < 128 then [c.toLower] else imageOf lowerExpansions lowerRuns c.toNat

/-- The folded form of a character: its lower case, but for the characters that fold
    further. -/
def foldChar (c : Char) : List Char :=
  if c.toNat < 128 then [c.toLower]
  else
    match foldExpansions.lookup c.toNat, foldRuns.findSome? (fun r => r.apply? c.toNat) with
    | some image, _ => image.map Char.ofNat
    | none, some n => [Char.ofNat n]
    | none, none => lowerChar c

/-! ### Final sigma -/

/-- The capital sigma. -/
def capitalSigma : Char := Char.ofNat 0x3a3

/-- A cased character that is not case-ignorable. -/
def isCased (c : Char) : Bool :=
  if c.toNat < 128 then c.isAlpha else inRanges casedRanges c.toNat

/-- A character that is passed over in the search for a cased neighbour. -/
def isCaseIgnorable (c : Char) : Bool := inRanges caseIgnorableRanges c.toNat

/-- The next character that is not case-ignorable is cased. -/
def casedNext (s : List Char) : Bool :=
  match s.dropWhile isCaseIgnorable with
  | [] => false
  | c :: _ => isCased c

/-- The lower case of a text.  `before` holds the characters already read, the nearest
    first: a capital sigma is final when a cased character stands before it and none after
    it, case-ignorable ones passed over. -/
def lowerFrom (before : List Char) : List Char → List Char
  | [] => []
  | c :: r =>
    (if c = capitalSigma then
      [Char.ofNat (if casedNext before && !casedNext r then 0x3c2 else 0x3c3)]
    else lowerChar c) ++ lowerFrom (c :: before) r

/-! ### Texts -/

/-- Upper case, character by character. -/
def upperChars (s : List Char) : List Char := s.flatMap upperChar

/-- Lower case, with the final sigma. -/
def lowerChars (s : List Char) : List Char := lowerFrom [] s

/-- Case folding, character by character. -/
def foldChars (s : List Char) : List Char := s.flatMap foldChar

/-- The upper case of a text. -/
def upper (s : String) : String := .ofList (upperChars s.toList)

/-- The lower case of a text. -/
def lower (s : String) : String := .ofList (lowerChars s.toList)

/-- The case-folded form of a text, by which texts are compared without regard to case. -/
def fold (s : String) : String := .ofList (foldChars s.toList)

/-- Upper case for the first character only. -/
def capitalizeChars : List Char → List Char
  | [] => []
  | c :: r => upperChar c ++ r

end ApiNodes.Text
