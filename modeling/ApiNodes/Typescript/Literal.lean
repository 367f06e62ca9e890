import ApiNodes.Text.Blank
import ApiNodes.Document.Shown

namespace ApiNodes.Typescript

/-!
# String literals

Text inside quotes of generated code.  Backslashes and the three quotes are escaped, so that
the text can stand in a literal of either quote and in a template literal.  Lists of texts
are written as the body of an array and as a union type.
-/

/-- The characters that are escaped: the backslash and the quotes. -/
def isSpecial (c : Char) : Bool := c == '\\' || c == '\x27' || c == '\x22' || c == '\x60'

/-- The escaped form of a text. -/
def escapeChars (s : List Char) : List Char :=
  s.flatMap fun c => if isSpecial c then ['\\', c] else [c]

/-- The escaped form of a text. -/
def escape (s : String) : String := .ofList (escapeChars s.toList)

/-- A text as a literal in single quotes. -/
def literal (s : String) : String := "'" ++ escape s ++ "'"

/-- Texts as the body of an array of literals. -/
def quotedList (xs : List String) : String := String.intercalate ", " (xs.map literal)

/-- Texts as a union of literals; no texts make the type without members. -/
def unionType : List String → String
  | [] => "never"
  | xs => String.intercalate " | " (xs.map literal)

/-! ### Descriptions -/

/-- Descriptions are cut after this many characters. -/
def descriptionLimit : Nat := 120

/-- Drop one final period. -/
def dropPeriod (s : List Char) : List Char :=
  match s.reverse with
  | '.' :: r => r.reverse
  | _ => s

/-- A description before it is cut: white space collapsed, braces dropped, the ends trimmed
    and one final period dropped. -/
def cleanDescription (s : List Char) : List Char :=
  dropPeriod (Text.trimChars ((Text.collapseBlanks s).filter fun c => c != '{' && c != '}'))

/-- Cut a text that is too long, and mark the cut. -/
def shorten (s : List Char) : List Char :=
  if descriptionLimit < s.length then s.take descriptionLimit ++ ['.', '.', '.'] else s

/-- The description of something as it stands inside a literal. -/
def description (s : String) : String :=
  .ofList (escapeChars (shorten (cleanDescription s.toList)))

end ApiNodes.Typescript
