namespace ApiNodes.Yaml

/-!
# Places in a YAML text

A cursor is the rest of a text with the place it begins at.  Five characters end a line:
the line feed, the carriage return, the next line and the line and paragraph separators.
The end of the text reads as the null character, which no text holds.
-/

/-- A place in a text. -/
structure Cursor where
  rest : List Char
  /-- The length of the whole text, which bounds the steps of reading it. -/
  length : Nat := rest.length
  index : Nat := 0
  line : Nat := 0
  column : Nat := 0

/-- A character that ends a line. -/
def isBreak (c : Char) : Bool :=
  c == '\n' || c == '\r' || c.toNat == 0x85 || c.toNat == 0x2028 || c.toNat == 0x2029

/-- The end of a line or of the text. -/
def isBreakOrEnd (c : Char) : Bool := c.toNat == 0 || isBreak c

/-- A blank, a tab or the end of a line or of the text. -/
def isGapOrEnd (c : Char) : Bool := c == ' ' || c == '\t' || isBreakOrEnd c

/-- A blank, or the end of a line or of the text. -/
def isBlankOrEnd (c : Char) : Bool := c == ' ' || isBreakOrEnd c

/-- A character that a document may hold. -/
def isAllowed (c : Char) : Bool :=
  let n := c.toNat
  n == 9 || n == 10 || n == 13 || decide (0x20 ≤ n ∧ n ≤ 0x7e) || n == 0x85 ||
    decide (0xa0 ≤ n ∧ n ≤ 0xd7ff) || decide (0xe000 ≤ n ∧ n ≤ 0xfffd) || decide (0x10000 ≤ n)

namespace Cursor

/-- Steps enough to read the rest of the text. -/
def fuel (c : Cursor) : Nat := c.length + 1

/-- The character `k` places on. -/
def peek (c : Cursor) (k : Nat) : Char := (c.rest[k]?).getD (Char.ofNat 0)

/-- The next character. -/
def head (c : Cursor) : Char := c.peek 0

/-- The place after the next character. -/
def next (c : Cursor) : Cursor :=
  match c.rest with
  | [] => c
  | ch :: r =>
    let moved := { c with rest := r, index := c.index + 1 }
    if ch = '\r' ∧ r.head? = some '\n' then { moved with column := c.column + 1 }
    else if isBreak ch then { moved with line := c.line + 1, column := 0 }
    else if ch.toNat = 0xfeff then moved
    else { moved with column := c.column + 1 }

/-- The place `n` characters on. -/
def skip : Nat → Cursor → Cursor
  | 0, c => c
  | n + 1, c => c.next.skip n

/-- The characters from here on that satisfy a test, and the place after them. -/
def span (p : Char → Bool) (c : Cursor) : List Char × Cursor :=
  let run := c.rest.takeWhile p
  (run, c.skip run.length)

/-- The place after the characters that satisfy a test. -/
def skipWhile (p : Char → Bool) (c : Cursor) : Cursor := (c.span p).2

/-- The place after blanks. -/
def skipBlanks (c : Cursor) : Cursor := c.skipWhile (· == ' ')

/-- A line break and the place after it.  The separators stand for themselves, every other
    break for a line feed; no break is the empty text. -/
def lineBreak (c : Cursor) : List Char × Cursor :=
  let h := c.head
  if h = '\r' ∧ c.peek 1 = '\n' then (['\n'], c.skip 2)
  else if h = '\n' ∨ h = '\r' ∨ h.toNat = 0x85 then (['\n'], c.next)
  else if isBreak h then ([h], c.next)
  else ([], c)

/-- Three hyphens or three periods and a gap. -/
def atMarker (c : Cursor) : Bool :=
  (c.rest.take 3 == ['-', '-', '-'] || c.rest.take 3 == ['.', '.', '.']) && isGapOrEnd (c.peek 3)

/-- The place after a comment. -/
def skipComment (c : Cursor) : Cursor :=
  if c.head = '#' then c.skipWhile (!isBreak ·) else c

/-- The place after the rest of a line that holds nothing but a comment. -/
def skipLine? (c : Cursor) : Option Cursor :=
  let c := c.skipBlanks.skipComment
  if isBreakOrEnd c.head then some c.lineBreak.2 else none

end Cursor
end ApiNodes.Yaml
