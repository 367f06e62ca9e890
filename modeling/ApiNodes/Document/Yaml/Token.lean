import ApiNodes.Document.Yaml.Scalar

namespace ApiNodes.Yaml

/-!
# Tokens of a YAML text

The tokens of a text.  Indentation opens and closes blocks, and a mapping key without a
mark of its own is only recognised at the colon after it: the place of every scalar,
bracket or property that may turn out to begin a key is kept until then.

Where no token can be read, the tokens break off with the fault.  The tokens before it are
those that are settled: no key can turn out to begin in front of them.
-/

/-- A tag as written: its handle, if it has one, and its suffix. -/
structure WrittenTag where
  handle : Option String
  suffix : String
  deriving DecidableEq, Repr

/-- A directive. -/
inductive Directive
  | version (major minor : Nat)
  | tag (handle start : String)
  | other
  deriving DecidableEq, Repr

/-- A token. -/
inductive Token
  | directive (d : Directive)
  | documentStart
  | documentEnd
  | blockSequenceStart
  | blockMappingStart
  | blockEnd
  | flowSequenceStart
  | flowMappingStart
  | flowSequenceEnd
  | flowMappingEnd
  | flowEntry
  | blockEntry
  | key
  | value
  | alias (name : String)
  | anchor (name : String)
  | tag (t : WrittenTag)
  | scalar (text : String) (isPlain : Bool)
  /-- The place where the text is at fault. -/
  | broken (fault : Fault)
  deriving DecidableEq, Repr

/-! ### Names and tags -/

/-- A character of an anchor, a directive name or a tag handle. -/
def isNameChar (c : Char) : Bool :=
  decide ('0' ≤ c ∧ c ≤ '9') || decide ('A' ≤ c ∧ c ≤ 'Z') || decide ('a' ≤ c ∧ c ≤ 'z') ||
    c == '-' || c == '_'

/-- A character of the text of a tag. -/
def isUriChar (c : Char) : Bool := isNameChar c || "-;/?:@&=+$,_.!~*'()[]%".toList.contains c

/-- The bytes written with percent signs at a place. -/
def uriBytes? : Nat → Cursor → Option (List UInt8 × Cursor)
  | 0, _ => none
  | fuel + 1, c =>
    if c.head = '%' then
      match c.rest.drop 1 with
      | a :: b :: _ => do
        let n ← Json.hexNumber? [a, b]
        let (bytes, c) ← uriBytes? fuel (c.skip 3)
        return (n.toUInt8 :: bytes, c)
      | _ => none
    else some ([], c)

/-- The pieces of the text of a tag. -/
def uriTail? : Nat → Cursor → Option (List Char × Cursor)
  | 0, _ => none
  | fuel + 1, c =>
    if c.head = '%' then do
      let (bytes, c) ← uriBytes? c.fuel c
      let s ← String.fromUTF8? ⟨bytes.toArray⟩
      let (tail, c) ← uriTail? fuel c
      return (s.toList ++ tail, c)
    else if isUriChar c.head then do
      let (tail, after) ← uriTail? fuel c.next
      return (c.head :: tail, after)
    else some ([], c)

/-- The text of a tag, which has at least one character. -/
def uri? (c : Cursor) : Option (String × Cursor) :=
  if isUriChar c.head then (uriTail? c.fuel c).map fun (s, c) => (.ofList s, c)
  else none

/-- A tag handle: an exclamation mark, or a name between two. -/
def handle? (c : Cursor) : Option (String × Cursor) :=
  if c.head != '!' then none
  else if c.peek 1 = ' ' then some ("!", c.next)
  else
    let (name, after) := c.next.span isNameChar
    if after.head = '!' then some (.ofList ('!' :: name ++ ['!']), after.next) else none

/-- A tag, read from its exclamation mark on. -/
def tag? (c : Cursor) : Option (WrittenTag × Cursor) := do
  let (t, after) ←
    if c.peek 1 = '<' then do
      let (s, after) ← uri? (c.skip 2)
      if after.head = '>' then some (WrittenTag.mk none s, after.next) else none
    else if isGapOrEnd (c.peek 1) then some (WrittenTag.mk none "!", c.next)
    else
      let word := (c.rest.drop 1).takeWhile fun ch => !isBlankOrEnd ch
      if word.contains '!' then do
        let (h, after) ← handle? c
        let (s, after) ← uri? after
        some (WrittenTag.mk (some h) s, after)
      else do
        let (s, after) ← uri? c.next
        some (WrittenTag.mk (some "!") s, after)
  if isBlankOrEnd after.head then some (t, after) else none

/-- The name of an anchor or an alias, read from its mark on. -/
def anchorName? (c : Cursor) : Option (String × Cursor) :=
  let (name, after) := c.next.span isNameChar
  let ends := isGapOrEnd after.head || "?:,]\x7d%@\x60".toList.contains after.head
  if name.isEmpty || !ends then none else some (.ofList name, after)

/-! ### Directives -/

/-- A number of a version. -/
def versionNumber (c : Cursor) : Except Fault (Nat × Cursor) :=
  let (digits, after) := c.span Json.isDigit
  if digits.isEmpty then .error .malformed
  else if Numeral.digitLimit < digits.length then .error .badNumber
  else .ok (Json.decimalNumber digits, after)

/-- The version of a directive: two numbers with a period between them. -/
def versionDirective (c : Cursor) : Except Fault (Directive × Cursor) := do
  let (major, c) ← versionNumber c
  if c.head != '.' then throw .malformed
  let (minor, c) ← versionNumber c.next
  return (.version major minor, c)

/-- The handle of a directive and what it stands for. -/
def tagDirective? (c : Cursor) : Option (Directive × Cursor) := do
  let (h, c) ← handle? c
  let (start, c) ← if c.head = ' ' then uri? c.skipBlanks else none
  return (.tag h start, c)

/-- A directive, read from its percent sign on. -/
def directive (c : Cursor) : Except Fault (Directive × Cursor) := do
  let (name, c) := c.next.span isNameChar
  if name.isEmpty || !isBlankOrEnd c.head then throw .malformed
  let (d, c) ←
    if name = "YAML".toList then versionDirective c.skipBlanks
    else if name = "TAG".toList then needed (tagDirective? c.skipBlanks)
    else pure (.other, c.skipWhile (!isBreak ·))
  if !isBlankOrEnd c.head then throw .malformed
  return (d, ← needed c.skipLine?)

/-! ### The state of reading -/

/-- A place where a key may have begun. -/
structure Candidate where
  /-- The count of tokens before it. -/
  position : Nat
  /-- Nothing but a key may stand there. -/
  isRequired : Bool
  index : Nat
  line : Nat
  column : Nat

/-- The state of reading: where it stands, the tokens so far, the depth of brackets, the
    columns of the open blocks, and the places where a key may have begun, by depth. -/
structure Reading where
  here : Cursor
  /-- The tokens, the last first. -/
  tokens : List Token := []
  /-- The count of tokens. -/
  count : Nat := 0
  depth : Nat := 0
  indent : Int := -1
  indents : List Int := []
  keyAllowed : Bool := true
  candidates : List (Nat × Candidate) := []

namespace Reading

/-- Add a token. -/
def push (s : Reading) (t : Token) : Reading :=
  { s with tokens := t :: s.tokens, count := s.count + 1 }

/-- Add a token behind the first `position` tokens. -/
def insert (s : Reading) (position : Nat) (t : Token) : Reading :=
  { s with tokens := s.tokens.insertIdx (s.count - position) t, count := s.count + 1 }

/-- Move on. -/
def skip (s : Reading) (n : Nat) : Reading := { s with here := s.here.skip n }

/-- Forget the candidate at the present depth, unless it has to be a key. -/
def dropCandidate? (s : Reading) : Option Reading :=
  match s.candidates.lookup s.depth with
  | none => some s
  | some k =>
    if k.isRequired then none
    else some { s with candidates := s.candidates.filter (·.1 != s.depth) }

/-- Keep the present place as a candidate. -/
def keepCandidate? (s : Reading) : Option Reading :=
  if s.keyAllowed then do
    let isRequired := s.depth == 0 && s.indent == s.here.column
    let s ← s.dropCandidate?
    let k := ⟨s.count, isRequired, s.here.index, s.here.line, s.here.column⟩
    return { s with candidates := (s.depth, k) :: s.candidates }
  else some s

/-- A candidate is stale on another line and far behind. -/
def isStale (s : Reading) (k : Candidate) : Bool :=
  k.line != s.here.line || decide (1024 < s.here.index - k.index)

/-- Forget the candidates that are stale, unless they have to be keys. -/
def dropStale? (s : Reading) : Option Reading :=
  if s.candidates.any fun (_, k) => s.isStale k && k.isRequired then none
  else some { s with candidates := s.candidates.filter fun (_, k) => !s.isStale k }

/-- The tokens before which no key can begin any more. -/
def settled (s : Reading) : List Token :=
  let undecided := s.candidates.filterMap fun (_, k) => if s.isStale k then none else some k.position
  s.tokens.reverse.take (undecided.foldl min s.count)

/-- Close the blocks that are deeper than a column. -/
def unwind (column : Int) : Nat → Reading → Reading
  | 0, s => s
  | fuel + 1, s =>
    if s.depth = 0 ∧ column < s.indent then
      match s.indents with
      | [] => s
      | i :: is =>
        unwind column fuel { s.push .blockEnd with indent := i, indents := is }
    else s

/-- Close the blocks that are deeper than a column. -/
def close (s : Reading) (column : Int) : Reading := unwind column (s.indents.length + 1) s

/-- Open a block at a column, unless one is open there. -/
def openBlock (s : Reading) (column : Nat) (position : Nat) (t : Token) : Reading :=
  if s.indent < column then
    { s.insert position t with indent := column, indents := s.indent :: s.indents }
  else s

/-- Pass over blanks, comments and line breaks.  A line break outside brackets lets a key
    begin. -/
def toNextToken : Nat → Reading → Reading
  | 0, s => s
  | fuel + 1, s =>
    let c := s.here.skipBlanks.skipComment
    if isBreak c.head then
      toNextToken fuel
        { s with here := c.lineBreak.2, keyAllowed := s.keyAllowed || s.depth == 0 }
    else { s with here := c }

/-- Add a token of the next character, after which a key may begin or not. -/
def mark (s : Reading) (t : Token) (keyAllowed : Bool) : Reading :=
  { (s.push t).skip 1 with keyAllowed }

/-- A document marker or a directive ends all blocks. -/
def endBlocks? (s : Reading) : Option Reading := do
  let s ← (s.close (-1)).dropCandidate?
  return { s with keyAllowed := false }

/-- A token that may begin a key. -/
def word (s : Reading) (read : Cursor → Except Fault (Token × Cursor)) : Except Fault Reading := do
  let s ← needed s.keepCandidate?
  let (t, c) ← read s.here
  return { s.push t with keyAllowed := false, here := c }

/-- An entry of a block sequence, or a marked key of a block mapping. -/
def blockMark? (s : Reading) (opener t : Token) (keyAllowed : Bool) : Option Reading := do
  let s ←
    if s.depth = 0 then
      if s.keyAllowed then some (s.openBlock s.here.column s.count opener) else none
    else some s
  return (← s.dropCandidate?).mark t keyAllowed

/-- The colon after a key. -/
def colon? (s : Reading) : Option Reading :=
  match s.candidates.lookup s.depth with
  | some k =>
    let s := { s.insert k.position .key with
      candidates := s.candidates.filter (·.1 != s.depth) }
    let s := if s.depth = 0 then s.openBlock k.column k.position .blockMappingStart else s
    some (s.mark .value false)
  | none => s.blockMark? .blockMappingStart .value (s.depth == 0)

/-- A plain scalar. -/
def plainScalar? (s : Reading) : Option Reading := do
  let s ← s.keepCandidate?
  let p := plain (s.depth != 0) (s.indent + 1) s.here
  return { s.push (.scalar (.ofList p.text) true) with keyAllowed := p.broken, here := p.after }

/-- A block scalar. -/
def blockScalar? (s : Reading) (folded : Bool) : Option Reading := do
  let s ← s.dropCandidate?
  let (text, c) ← block? folded s.indent s.here
  return { s.push (.scalar (.ofList text) false) with keyAllowed := true, here := c }

/-- An opening bracket. -/
def openFlow? (s : Reading) (t : Token) : Option Reading := do
  let s ← s.keepCandidate?
  return { s.mark t true with depth := s.depth + 1 }

/-- A closing bracket.  One without a partner has no place in a text. -/
def closeFlow? (s : Reading) (t : Token) : Option Reading := do
  let s ← s.dropCandidate?
  if s.depth = 0 then none else return { s.mark t false with depth := s.depth - 1 }

/-- A character that can begin a plain scalar. -/
def beginsPlain (s : Reading) : Bool :=
  let c := s.here.head
  if isGapOrEnd c || "-?:,[]\x7b\x7d#&*!|>'\x22%@\x60".toList.contains c then
    !isGapOrEnd (s.here.peek 1) && (c == '-' || (s.depth == 0 && (c == '?' || c == ':')))
  else true

/-- A mark of a document or of a collection, if the next character is one. -/
def marker? (s : Reading) : Option (Option Reading) :=
  let c := s.here
  let gapAfter := isGapOrEnd (c.peek 1)
  let inFlow := s.depth != 0
  let h := c.head
  let document (t : Token) : Option Reading := do return ((← s.endBlocks?).push t).skip 3
  if c.column = 0 ∧ h = '-' ∧ c.atMarker then some (document .documentStart)
  else if c.column = 0 ∧ h = '.' ∧ c.atMarker then some (document .documentEnd)
  else if h = '[' then some (s.openFlow? .flowSequenceStart)
  else if h = '{' then some (s.openFlow? .flowMappingStart)
  else if h = ']' then some (s.closeFlow? .flowSequenceEnd)
  else if h = '}' then some (s.closeFlow? .flowMappingEnd)
  else if h = ',' then some do return (← s.dropCandidate?).mark .flowEntry true
  else if h = '-' ∧ gapAfter then some (s.blockMark? .blockSequenceStart .blockEntry true)
  else if h = '?' ∧ (inFlow ∨ gapAfter) then
    some (s.blockMark? .blockMappingStart .key (!inFlow))
  else if h = ':' ∧ (inFlow ∨ gapAfter) then some s.colon?
  else none

/-- A quoted scalar. -/
def quotedScalar (s : Reading) (double : Bool) : Except Fault Reading :=
  s.word fun c => do
    let (text, c) ← quoted double c
    return (.scalar (.ofList text) false, c)

/-- A property, an alias or a scalar. -/
def content (s : Reading) : Except Fault Reading :=
  let h := s.here.head
  let inFlow := s.depth != 0
  if h = '*' then s.word fun c => needed ((anchorName? c).map fun (n, c) => (.alias n, c))
  else if h = '&' then s.word fun c => needed ((anchorName? c).map fun (n, c) => (.anchor n, c))
  else if h = '!' then s.word fun c => needed ((tag? c).map fun (t, c) => (.tag t, c))
  else if h = '|' ∧ !inFlow then needed (s.blockScalar? false)
  else if h = '>' ∧ !inFlow then needed (s.blockScalar? true)
  else if h = '\x27' then s.quotedScalar false
  else if h = '\x22' then s.quotedScalar true
  else if s.beginsPlain then needed s.plainScalar?
  else .error .malformed

/-- The next token, and those that come with it. -/
def nextToken (s : Reading) : Except Fault Reading := do
  if s.here.column = 0 ∧ s.here.head = '%' then
    let s ← needed s.endBlocks?
    let (d, c) ← directive s.here
    return { s.push (.directive d) with here := c }
  else
    match s.marker? with
    | some found => needed found
    | none => s.content

/-- The state in front of the next token, and whether the text ends there. -/
def advance (s : Reading) : Except Fault (Reading × Bool) := do
  let s ← needed (toNextToken s.here.fuel s).dropStale?
  let s := s.close s.here.column
  if s.here.rest.isEmpty then return (← needed (s.close (-1)).dropCandidate?, true)
  else return (← s.nextToken, false)

/-- The tokens up to the end of the text, or up to the place where it is at fault. -/
def all : Nat → Reading → List Token
  | 0, s => s.settled ++ [.broken .malformed]
  | fuel + 1, s =>
    match s.advance with
    | .error fault => s.settled ++ [.broken fault]
    | .ok (s, true) => s.tokens.reverse
    | .ok (s, false) => all fuel s

end Reading

/-- The tokens of a text.  A byte-order mark may stand before them. -/
def tokens (text : List Char) : List Token :=
  if text.all isAllowed then
    let start : Cursor := { rest := text }
    let start := if start.head.toNat = 0xfeff then start.next else start
    Reading.all (start.fuel + 1) { here := start }
  else [.broken .malformed]

end ApiNodes.Yaml
