import ApiNodes.Document.Json.Reader
import ApiNodes.Document.Yaml.Cursor
import ApiNodes.Document.Yaml.Fault
import ApiNodes.Text.Surrogates

namespace ApiNodes.Yaml

/-!
# Scalars of a YAML text

The three forms of a scalar: plain, quoted and block.  Each reader takes the place where
the scalar begins and gives its text and the place after it; a scalar that is not well
formed has no text.  In a quoted scalar an escape stands for a code, and the codes of a pair
of surrogates for one character.
-/

/-! ### Quoted scalars -/

/-- The line breaks of a quoted scalar after the first one, with the blanks around them.
    A document marker may not stand there. -/
def quotedBreaks? : Nat → Cursor → Option (List Char × Cursor)
  | 0, _ => none
  | fuel + 1, c =>
    if c.atMarker then none
    else
      let c := c.skipWhile fun ch => ch == ' ' || ch == '\t'
      if isBreak c.head then do
        let (b, c) := c.lineBreak
        let (bs, c) ← quotedBreaks? fuel c
        return (b ++ bs, c)
      else some ([], c)

/-- Line breaks fold: one becomes a blank, of several the first is dropped.  A separator is
    kept. -/
def foldBreaks (first others : List Char) : List Char :=
  if first != ['\n'] then first ++ others else if others.isEmpty then [' '] else others

/-- Blanks and line breaks inside a quoted scalar. -/
def quotedSpaces? (c : Cursor) : Option (List Char × Cursor) :=
  let (blanks, c) := c.span fun ch => ch == ' ' || ch == '\t'
  if c.rest.isEmpty then none
  else if isBreak c.head then do
    let (first, c) := c.lineBreak
    let (others, c) ← quotedBreaks? c.fuel c
    return (foldBreaks first others, c)
  else some (blanks, c)

/-- The codes that a backslash and one character stand for. -/
def shortEscapes : List (Char × Nat) :=
  [('0', 0), ('a', 7), ('b', 8), ('t', 9), ('\t', 9), ('n', 10), ('v', 11), ('f', 12), ('r', 13),
   ('e', 27), (' ', 32), ('\x22', 34), ('\\', 92), ('/', 47), ('N', 0x85), ('_', 0xa0),
   ('L', 0x2028), ('P', 0x2029)]

/-- The digit counts of the escapes by code. -/
def codeEscapes : List (Char × Nat) := [('x', 2), ('u', 4), ('U', 8)]

/-- A code, if there is a character with it; codes of more than 31 bits are too large. -/
def characterCode (n : Nat) : Except Fault Nat :=
  if 0x7fffffff < n then .error .tooLarge
  else if 0x10ffff < n then .error .badNumber
  else .ok n

/-- An escape by a code of so many digits. -/
def codeEscape (width : Nat) (c : Cursor) : Except Fault (List Nat × Cursor) := do
  let digits := c.rest.take width
  let n ← needed ((Json.hexNumber? digits).filter fun _ => digits.length == width)
  return ([← characterCode n], c.skip width)

/-- An escape, read after its backslash: the codes that it stands for. -/
def escape (c : Cursor) : Except Fault (List Nat × Cursor) :=
  match shortEscapes.lookup c.head, codeEscapes.lookup c.head with
  | some n, _ => .ok ([n], c.next)
  | none, some width => codeEscape width c.next
  | none, none => do
    if isBreak c.head then
      let c := c.lineBreak.2
      let (breaks, c) ← needed (quotedBreaks? c.fuel c)
      return (breaks.map Char.toNat, c)
    else throw .malformed

/-- A quoted scalar up to its closing quote, and the place after it; `seen` holds the codes
    read so far, the last first. -/
def quotedTail (double : Bool) : Nat → List Nat → Cursor → Except Fault (List Char × Cursor)
  | 0, _, _ => .error .malformed
  | fuel + 1, seen, c =>
    let quote := if double then '\x22' else '\x27'
    if c.rest.isEmpty then .error .malformed
    else if !double && c.head == quote && c.peek 1 == quote then
      quotedTail double fuel (quote.toNat :: seen) (c.skip 2)
    else if c.head = quote then .ok (Text.ofCodes seen.reverse, c.next)
    else if double && c.head == '\\' then do
      let (codes, c) ← escape c.next
      quotedTail double fuel (codes.reverse ++ seen) c
    else if isGapOrEnd c.head then do
      let (piece, c) ← needed (quotedSpaces? c)
      quotedTail double fuel ((piece.map Char.toNat).reverse ++ seen) c
    else quotedTail double fuel (c.head.toNat :: seen) c.next

/-- A quoted scalar, read from its opening quote on. -/
def quoted (double : Bool) (c : Cursor) : Except Fault (List Char × Cursor) :=
  quotedTail double c.fuel [] c.next

/-! ### Plain scalars -/

/-- The characters that end a plain scalar inside brackets. -/
def isFlowMark (c : Char) : Bool :=
  c == ',' || c == '?' || c == '[' || c == ']' || c == '{' || c == '}'

/-- The text of a plain scalar up to the next gap or mark. -/
def plainWord (inFlow : Bool) : List Char → List Char
  | [] => []
  | c :: r =>
    let after := (r.head?).getD (Char.ofNat 0)
    if isGapOrEnd c || (inFlow && isFlowMark c) ||
        (c == ':' && (isGapOrEnd after || (inFlow && isFlowMark after && after != '?'))) then []
    else c :: plainWord inFlow r

/-- The blanks and line breaks after the first break of a plain scalar; nothing when a
    document marker follows. -/
def plainBreaks : Nat → Cursor → Option (List Char) × Cursor
  | 0, c => (some [], c)
  | fuel + 1, c =>
    if c.head = ' ' then plainBreaks fuel c.next
    else if isBreak c.head then
      let (b, c) := c.lineBreak
      if c.atMarker then (none, c)
      else
        let (bs, c) := plainBreaks fuel c
        (bs.map (b ++ ·), c)
    else (some [], c)

/-- The gap after a word of a plain scalar: the text that it stands for if the scalar goes
    on, and whether it holds a line break. -/
def plainSpaces (c : Cursor) : List Char × Bool × Cursor :=
  let (blanks, c) := c.span (· == ' ')
  if isBreak c.head then
    let (first, c) := c.lineBreak
    if c.atMarker then ([], true, c)
    else
      match plainBreaks c.fuel c with
      | (none, c) => ([], true, c)
      | (some others, c) => (foldBreaks first others, true, c)
  else (blanks, false, c)

/-- What a plain scalar gives: its text, whether the last gap held a line break, and the
    place after it. -/
structure Plain where
  text : List Char
  broken : Bool
  after : Cursor

/-- The words of a plain scalar from here on, each with the gap before it. -/
def plainTail (inFlow : Bool) (indent : Int) : Nat → List Char → Bool → Cursor → Plain
  | 0, _, broken, c => ⟨[], broken, c⟩
  | fuel + 1, gap, broken, c =>
    if c.head = '#' then ⟨[], broken, c⟩
    else
      match plainWord inFlow c.rest with
      | [] => ⟨[], broken, c⟩
      | word =>
        let (spaces, broken, after) := plainSpaces (c.skip word.length)
        if spaces.isEmpty || after.head == '#' || (!inFlow && decide ((after.column : Int) < indent))
        then ⟨gap ++ word, broken, after⟩
        else
          let tail := plainTail inFlow indent fuel spaces broken after
          ⟨gap ++ word ++ tail.text, tail.broken, tail.after⟩

/-- A plain scalar. -/
def plain (inFlow : Bool) (indent : Int) (c : Cursor) : Plain :=
  plainTail inFlow indent c.fuel [] false c

/-! ### Block scalars -/

/-- What becomes of the line breaks at the end of a block scalar. -/
inductive Chomping
  | strip
  | clip
  | keep
  deriving DecidableEq

/-- A sign for the final breaks. -/
def chomping? (c : Char) : Option Chomping :=
  if c = '+' then some .keep else if c = '-' then some .strip else none

/-- An indentation digit. -/
def indentDigit? (c : Char) : Option Nat :=
  if '0' ≤ c ∧ c ≤ '9' then some (c.toNat - 48) else none

/-- The header of a block scalar: a sign and a digit in either order, each of them
    optional; the digit is not zero. -/
def blockHeader? (c : Cursor) : Option (Chomping × Option Nat × Cursor) :=
  let (sign, digit, c) :=
    match chomping? c.head with
    | some sign =>
      match indentDigit? (c.peek 1) with
      | some d => (sign, some d, c.skip 2)
      | none => (sign, none, c.next)
    | none =>
      match indentDigit? c.head with
      | some d =>
        match chomping? (c.peek 1) with
        | some sign => (sign, some d, c.skip 2)
        | none => (.clip, some d, c.next)
      | none => (.clip, none, c)
  if digit = some 0 || !isBlankOrEnd c.head then none
  else (sign, digit, ·) <$> c.skipLine?

/-- The blank lines before the first line of a block scalar, and the deepest column that
    their blanks reach. -/
def leadingLines : Nat → Nat → Cursor → List Char × Nat × Cursor
  | 0, deepest, c => ([], deepest, c)
  | fuel + 1, deepest, c =>
    if c.head = ' ' then leadingLines fuel (max deepest c.next.column) c.next
    else if isBreak c.head then
      let (b, c) := c.lineBreak
      let (bs, deepest, c) := leadingLines fuel deepest c
      (b ++ bs, deepest, c)
    else ([], deepest, c)

/-- The place after blanks up to a column. -/
def skipIndent (indent : Nat) : Nat → Cursor → Cursor
  | 0, c => c
  | fuel + 1, c =>
    if c.column < indent ∧ c.head = ' ' then skipIndent indent fuel c.next else c

/-- The blank lines of a block scalar, and the place where the text of its next line
    begins. -/
def blockBreaks (indent : Nat) : Nat → Cursor → List Char × Cursor
  | 0, c => ([], c)
  | fuel + 1, c =>
    let c := skipIndent indent c.fuel c
    if isBreak c.head then
      let (b, c) := c.lineBreak
      let (bs, c) := blockBreaks indent fuel c
      (b ++ bs, c)
    else ([], c)

/-- The lines of a block scalar; `breaks` are the blank lines before the next one. -/
def blockLines (folded : Bool) (chomping : Chomping) (indent : Nat) :
    Nat → List Char → List Char → Cursor → List Char × Cursor
  | 0, _, _, c => ([], c)
  | fuel + 1, last, breaks, c =>
    if c.column = indent ∧ !c.rest.isEmpty then
      let opensText := c.head != ' ' && c.head != '\t'
      let (line, c) := c.span (!isBreak ·)
      let (last, c) := c.lineBreak
      let (after, c) := blockBreaks indent c.fuel c
      let joint :=
        if c.column = indent ∧ !c.rest.isEmpty then
          if folded && last == ['\n'] && opensText && c.head != ' ' && c.head != '\t' then
            (if after.isEmpty then [' '] else [])
          else last
        else []
      let (tail, c) := blockLines folded chomping indent fuel last after c
      (breaks ++ line ++ joint ++ tail, c)
    else
      ((if chomping = .strip then [] else last) ++ (if chomping = .keep then breaks else []), c)

/-- A block scalar, read from its mark on; `parent` is the column of the block around it. -/
def block? (folded : Bool) (parent : Int) (c : Cursor) : Option (List Char × Cursor) := do
  let (chomping, digit, c) ← blockHeader? c.next
  let least := max 1 (parent + 1).toNat
  let fuel := c.fuel
  match digit with
  | some d =>
    let indent := least + d - 1
    let (breaks, c) := blockBreaks indent fuel c
    return blockLines folded chomping indent fuel [] breaks c
  | none =>
    let (breaks, deepest, c) := leadingLines fuel 0 c
    return blockLines folded chomping (max least deepest) fuel [] breaks c

end ApiNodes.Yaml
