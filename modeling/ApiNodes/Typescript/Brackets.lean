namespace ApiNodes.Typescript

/-!
# Brackets

A scan of a source text that passes over comments and string literals and checks that the
brackets elsewhere nest.  The scan reads one character at a time, so that the scan of two
texts in a row is the scan of the first continued over the second.
-/

/-- What is wrong with a source text, and the line it is found in. -/
inductive Imbalance
  | unterminated (line : Nat)
  | unexpected (closer : Char) (line : Nat)
  | unclosed (opener : Char) (line : Nat)
  deriving DecidableEq, Repr

/-- Where a scan stands. -/
inductive Mode
  | code
  /-- After a slash that may begin a comment. -/
  | slash
  | lineComment
  /-- In a block comment, after a star that may end it or not. -/
  | blockComment (star : Bool)
  /-- In a literal that was opened in a line by a quote, after a backslash or not. -/
  | literal (quote : Char) (opened : Nat) (escaped : Bool)
  deriving DecidableEq, Repr

/-- The state of a scan: the open brackets with their lines, the innermost first, and the
    line it has come to. -/
structure Scan where
  mode : Mode := .code
  stack : List (Char × Nat) := []
  line : Nat := 1
  deriving DecidableEq, Repr

/-- A quote of one of the three kinds. -/
def isQuote (c : Char) : Bool := c == '\x27' || c == '\x22' || c == '\x60'

/-- The opening partner of a closing bracket. -/
def partner? (c : Char) : Option Char :=
  if c = ')' then some '(' else if c = ']' then some '[' else if c = '}' then some '{' else none

/-- An opening bracket. -/
def isOpener (c : Char) : Bool := c == '(' || c == '[' || c == '{'

/-- The line after a character. -/
def lineAfter (line : Nat) (c : Char) : Nat := if c = '\n' then line + 1 else line

/-- A character outside comments and literals. -/
def Scan.code (s : Scan) (c : Char) : Except Imbalance Scan :=
  if c = '\n' then .ok { s with mode := .code, line := s.line + 1 }
  else if c = '/' then .ok { s with mode := .slash }
  else if isQuote c then .ok { s with mode := .literal c s.line false }
  else if isOpener c then .ok { s with mode := .code, stack := (c, s.line) :: s.stack }
  else
    match partner? c with
    | none => .ok { s with mode := .code }
    | some opener =>
      match s.stack with
      | [] => .error (.unexpected c s.line)
      | (top, _) :: rest =>
        if top = opener then .ok { s with mode := .code, stack := rest }
        else .error (.unexpected c s.line)

/-- One character of a source text. -/
def Scan.step (s : Scan) (c : Char) : Except Imbalance Scan :=
  match s.mode with
  | .code => s.code c
  | .slash =>
    if c = '/' then .ok { s with mode := .lineComment }
    else if c = '*' then .ok { s with mode := .blockComment false }
    else s.code c
  | .lineComment => if c = '\n' then s.code c else .ok s
  | .blockComment star =>
    if star && c == '/' then .ok { s with mode := .code }
    else .ok { s with mode := .blockComment (c == '*'), line := lineAfter s.line c }
  | .literal quote opened true =>
    .ok { s with mode := .literal quote opened false, line := lineAfter s.line c }
  | .literal quote opened false =>
    if c = '\\' then .ok { s with mode := .literal quote opened true }
    else if c = quote then .ok { s with mode := .code }
    else if c = '\n' ∧ quote ≠ '\x60' then .error (.unterminated opened)
    else .ok { s with line := lineAfter s.line c }

/-- What the end of the text finds wrong. -/
def Scan.finish (s : Scan) : Except Imbalance Unit :=
  match s.mode with
  | .literal _ opened _ => .error (.unterminated opened)
  | _ =>
    match s.stack with
    | [] => .ok ()
    | (opener, line) :: _ => .error (.unclosed opener line)

/-- Scan a text. -/
def Scan.run (s : Scan) (text : List Char) : Except Imbalance Scan := text.foldlM Scan.step s

/-- What is wrong with the brackets of a text, if anything is. -/
def imbalance? (text : List Char) : Option Imbalance :=
  match (Scan.run {} text).bind Scan.finish with
  | .ok () => none
  | .error e => some e

/-- The scan of two texts in a row. -/
theorem Scan.run_append (s : Scan) (a b : List Char) :
    s.run (a ++ b) = (s.run a).bind fun t => t.run b := by
  simp only [Scan.run, List.foldlM_append]
  rfl

end ApiNodes.Typescript
