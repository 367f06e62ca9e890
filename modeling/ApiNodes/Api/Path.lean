import ApiNodes.Text.Pieces

namespace ApiNodes.Api

/-!
# Paths

A path is a text with placeholders: a name between braces.  A brace without a partner is
an ordinary character, and so are two braces with nothing between them.
-/

/-- A part of a path: a character, or a placeholder. -/
inductive PathPart
  | plain (c : Char)
  | hole (name : List Char)
  deriving DecidableEq, Repr

/-- The text of a part. -/
def PathPart.text : PathPart → List Char
  | plain c => [c]
  | hole name => '{' :: name ++ ['}']

/-- The parts of a path.  `opened` holds the characters since an open brace, the last
    first: a closing brace makes them a placeholder, and the end of the path leaves them
    ordinary. -/
def partsFrom (opened : Option (List Char)) : List Char → List PathPart
  | [] =>
    match opened with
    | none => []
    | some seen => .plain '{' :: seen.reverse.map .plain
  | c :: r =>
    match opened with
    | none => if c = '{' then partsFrom (some []) r else .plain c :: partsFrom none r
    | some seen =>
      if c = '}' then .hole seen.reverse :: partsFrom none r
      else partsFrom (some (c :: seen)) r

/-- The parts of a path, empty placeholders included. -/
def parts (path : List Char) : List PathPart := partsFrom none path

/-- The name of a placeholder that has one. -/
def PathPart.name? : PathPart → Option (List Char)
  | plain _ => none
  | hole [] => none
  | hole name => some name

/-- The names of the placeholders of a path, in order and with repetitions. -/
def placeholderNames (path : String) : List String :=
  (parts path.toList).filterMap fun p => p.name?.map String.ofList

/-- The root under which the paths of the service stand. -/
def root : String := "/api/v1/"

/-- The segments of a path under the root, without its query.  A path elsewhere has none. -/
def segments (path : String) : List String :=
  let clean := path.toList.takeWhile (· != '?')
  match Text.after? root.toList clean with
  | none => []
  | some rest => ((Text.cut '/' rest).filter (!·.isEmpty)).map String.ofList

/-- A segment that begins with a brace is a placeholder. -/
def isHole (segment : String) : Bool := Text.startsWith "\x7b" segment.toList

/-- Ordinary characters make up their text. -/
theorem flatMap_text_map_plain (s : List Char) : (s.map PathPart.plain).flatMap PathPart.text = s := by
  induction s with
  | nil => rfl
  | cons c r ih => simp_all [PathPart.text]

/-- The parts of a path make up the path. -/
theorem flatMap_text_partsFrom (opened : Option (List Char)) (path : List Char) :
    (partsFrom opened path).flatMap PathPart.text =
      (match opened with | none => [] | some seen => '{' :: seen.reverse) ++ path := by
  induction path generalizing opened with
  | nil =>
    cases opened with
    | none => rfl
    | some seen =>
      have h := flatMap_text_map_plain seen.reverse
      simpa [partsFrom, PathPart.text] using h
  | cons c r ih =>
    cases opened with
    | none =>
      by_cases h : c = '{'
      · simp [partsFrom, h, ih]
      · simp [partsFrom, h, ih, PathPart.text]
    | some seen =>
      by_cases h : c = '}'
      · simp [partsFrom, h, ih, PathPart.text]
      · simp [partsFrom, h, ih]

end ApiNodes.Api
