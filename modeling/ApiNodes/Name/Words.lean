import ApiNodes.Text.Blank
import ApiNodes.Text.Casing
import ApiNodes.Text.Pieces

namespace ApiNodes.Name

/-!
# Words and cases of names

A name is a row of words.  Hyphens, underscores and white space separate words; inside a
name without separators a word also begins where an ASCII small letter meets an ASCII
capital.  From the words come the camel case and the Pascal case of identifiers, the
hyphenated case of file names and the title case of labels.
-/

/-! ### Letters -/

/-- An ASCII small letter. -/
def isSmall (c : Char) : Bool := decide ('a' ≤ c ∧ c ≤ 'z')

/-- An ASCII capital letter. -/
def isCapital (c : Char) : Bool := decide ('A' ≤ c ∧ c ≤ 'Z')

/-- An ASCII letter. -/
def isLetter (c : Char) : Bool := isSmall c || isCapital c

/-- An ASCII digit. -/
def isDigit (c : Char) : Bool := decide ('0' ≤ c ∧ c ≤ '9')

/-- A character of an identifier: an ASCII letter, an ASCII digit or an underscore. -/
def isWordChar (c : Char) : Bool := isLetter c || isDigit c || c == '_'

/-- A character that separates words. -/
def isSeparator (c : Char) : Bool := c == '-' || c == '_' || Text.isBlank c

/-! ### Words -/

/-- The words of a name: the longest runs without a separator. -/
def words : List Char → List (List Char)
  | [] => []
  | [c] => if isSeparator c then [] else [[c]]
  | c :: d :: r =>
    if isSeparator c then words (d :: r)
    else if isSeparator d then [c] :: words (d :: r)
    else
      match words (d :: r) with
      | [] => [[c]]
      | w :: ws => (c :: w) :: ws

/-- Put a separator wherever a small letter meets a capital. -/
def splitHumps (separator : Char) : List Char → List Char
  | [] => []
  | [c] => [c]
  | c :: d :: r =>
    if isSmall c && isCapital d then c :: separator :: splitHumps separator (d :: r)
    else c :: splitHumps separator (d :: r)

/-! ### Identifier cases -/

/-- Camel case: the first word with a small initial, the others with capital ones. -/
def camelChars (s : List Char) : List Char :=
  match words s with
  | [] => []
  | w :: ws => Text.lowerChars (w.take 1) ++ w.drop 1 ++ ws.flatMap Text.capitalizeChars

/-- Pascal case: camel case with a capital initial. -/
def pascalChars (s : List Char) : List Char := Text.capitalizeChars (camelChars s)

/-- Hyphenated case: humps become hyphens and all letters small. -/
def hyphenatedChars (s : List Char) : List Char := Text.lowerChars (splitHumps '-' s)

/-- The camel case of a text. -/
def camel (s : String) : String := .ofList (camelChars s.toList)

/-- The Pascal case of a text. -/
def pascal (s : String) : String := .ofList (pascalChars s.toList)

/-- The hyphenated case of a text. -/
def hyphenated (s : String) : String := .ofList (hyphenatedChars s.toList)

/-- Upper case for the first character, lower case for the rest. -/
def sentenceChars (s : List Char) : List Char :=
  Text.upperChars (s.take 1) ++ Text.lowerChars (s.drop 1)

/-- A text as a sentence: its first character in upper case, the rest in lower case. -/
def sentence (s : String) : String := .ofList (sentenceChars s.toList)

/-! ### Labels -/

/-- Abbreviations whose letters labels keep as they are. -/
def acronyms : List String :=
  ["API", "ID", "URL", "HTTP", "JSON", "XML", "JWT", "OAuth", "RSA"]

/-- A word of a label: an abbreviation in its own spelling, any other word in title case. -/
def labelWord (w : List Char) : String :=
  let raised := Text.upperChars w
  match acronyms.find? fun a => Text.upperChars a.toList == raised with
  | some a => a
  | none => .ofList (sentenceChars w)

/-- The label of a name: the words of the name and of its humps, with a blank between each
    two. -/
def label (name : String) : String :=
  String.intercalate " " ((words (splitHumps ' ' name.toList)).map labelWord)

end ApiNodes.Name
