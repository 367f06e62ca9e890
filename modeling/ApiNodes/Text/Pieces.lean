namespace ApiNodes.Text

/-!
# Cutting and joining texts

Cutting at a character, joining with a separator, and the tests and cuts at the ends of a
text that the naming rules need.
-/

/-- Cut at every `sep`; a text with `n` separators has `n + 1` pieces, empty ones included. -/
def cut (sep : Char) : List Char → List (List Char)
  | [] => [[]]
  | c :: r =>
    if c = sep then [] :: cut sep r
    else
      match cut sep r with
      | [] => [[c]]
      | p :: ps => (c :: p) :: ps

/-- Join pieces, a separator between each two. -/
def join (sep : List Char) : List (List Char) → List Char
  | [] => []
  | [p] => p
  | p :: q :: r => p ++ sep ++ join sep (q :: r)

/-- Cut a text at every `sep`. -/
def pieces (sep : Char) (s : String) : List String := (cut sep s.toList).map String.ofList

/-- The rest of a text after a given beginning. -/
def after? (start s : List Char) : Option (List Char) :=
  match start, s with
  | [], s => some s
  | _ :: _, [] => none
  | a :: start, c :: s => if a = c then after? start s else none

/-- A text begins with `start`. -/
def startsWith (start : String) (s : List Char) : Bool := (after? start.toList s).isSome

/-- A text ends with `tail`. -/
def endsWith (tail : String) (s : List Char) : Bool :=
  (after? tail.toList.reverse s.reverse).isSome

/-- Drop `tail` from the end of a text, or from before the line feed that ends it. -/
def dropTail (tail s : List Char) : List Char :=
  match after? tail.reverse s.reverse with
  | some kept => kept.reverse
  | none =>
    match s.reverse with
    | '\n' :: r =>
      match after? tail.reverse r with
      | some kept => kept.reverse ++ ['\n']
      | none => s
    | _ => s

end ApiNodes.Text
