import ApiNodes.Document.Shown
import ApiNodes.Ordered
import ApiNodes.Typescript.Literal

namespace ApiNodes.Template

/-!
# Templates

A template is fixed text with holes.  A hole names a value of the scope, or a member of
one, and says how the value is written; parts are repeated for the items of a value or left
out on a condition.  Brackets and string literals are parts of their own, so that what a
template opens it closes.  Filling stops at the first hole that has no value.
-/

/-! ### Parts -/

/-- A way to a value: a name of the scope, or a member of the value of a name. -/
inductive Ref
  | name (n : String)
  | field (root n : String)
  deriving DecidableEq, Repr

/-- What is written into a hole. -/
inductive Hole
  /-- The text of the value. -/
  | plain (of : Ref)
  /-- The text, escaped for a literal. -/
  | escaped (of : Ref)
  /-- The value as a description inside a literal. -/
  | described (of : Ref)
  /-- The texts of the items, with commas between them. -/
  | listed (of : Ref)
  /-- The items as the body of an array of literals. -/
  | quoted (of : Ref)
  /-- A member of every item, as a union of literals. -/
  | union (of : Ref) (n : String)
  /-- One of two words. -/
  | choice (test : Ref) (yes no : String)
  deriving DecidableEq, Repr

/-- A condition: the value counts as present, or it is not the null value. -/
inductive Test
  | truthy (of : Ref)
  | notNull (of : Ref)
  deriving DecidableEq, Repr

/-- The three kinds of brackets. -/
inductive Bracket
  | round
  | square
  | curly
  deriving DecidableEq, Repr

/-- The opening bracket. -/
def Bracket.opener : Bracket → Char
  | round => '('
  | square => '['
  | curly => '{'

/-- The closing bracket. -/
def Bracket.closer : Bracket → Char
  | round => ')'
  | square => ']'
  | curly => '}'

/-- A part of a template. -/
inductive Part
  | text (s : String)
  | hole (h : Hole)
  /-- Parts between brackets. -/
  | group (b : Bracket) (body : List Part)
  /-- Parts between quotes. -/
  | literal (quote : Char) (body : List Part)
  /-- Parts for every item of a value, which is bound to a name. -/
  | each (item : String) (of : Ref) (body : List Part)
  | when (test : Test) (body : List Part)

/-! ### Scopes -/

/-- The values by name; the first of a name counts. -/
abbrev Scope := List (String × Value)

/-- The kinds of values as messages name them. -/
def kindName (v : Value) : String :=
  match v.untied with
  | .null => "None"
  | .bool _ => "bool object"
  | .int _ => "int object"
  | .float _ => "float object"
  | .str _ => "str object"
  | .list _ => "list object"
  | .map _ => "dict object"
  | .date _ => "datetime.date object"
  | .timestamp _ => "datetime.datetime object"
  | .bytes _ => "bytes object"
  | .set _ => "set object"
  | .pair _ _ => "tuple object"
  | .knot _ _ | .again _ => "object"

/-- What a scope does not have. -/
inductive Missing
  | name (n : String)
  | member (of : Value) (n : String)
  deriving Repr

/-- The wording of what is missing. -/
def Missing.message : Missing → String
  | name n => Text.quoted n ++ " is undefined"
  | member v n => Text.quoted (kindName v) ++ " has no attribute " ++ Text.quoted n

/-- Why a template cannot be filled. -/
inductive RenderError
  | undefined (what : Missing)
  /-- The items of a value without items are asked for. -/
  | notIterable
  /-- A value that is no text is to be a description. -/
  | notText
  /-- There is no template of a name. -/
  | noTemplate
  /-- A value stands under a name that is not for values. -/
  | reservedName
  /-- The properties of a resource without operations are asked for. -/
  | noOperation
  deriving Repr

/-- A member of a value. -/
def memberOf (v : Value) (n : String) : Except RenderError Value :=
  match v.get? n with
  | some w => .ok w
  | none => .error (.undefined (.member v n))

/-- The value that a name stands for. -/
def valueOf (scope : Scope) (n : String) : Except RenderError Value :=
  match lookup? n scope with
  | some v => .ok v
  | none => .error (.undefined (.name n))

/-- The value at the end of a way. -/
def Ref.value (scope : Scope) : Ref → Except RenderError Value
  | name n => valueOf scope n
  | field root n => do memberOf (← valueOf scope root) n

/-- The items of a value: of a list or a set, the keys of a mapping, the characters of a
    text, the numbers of bytes. -/
def itemsOf (v : Value) : Except RenderError (List Value) :=
  match v.untied with
  | .list xs | .set xs => .ok xs
  | .map es => .ok (es.map Prod.fst)
  | .str s => .ok (s.toList.map fun c => .str (.ofList [c]))
  | .bytes data => .ok (data.map fun b => .int b.toNat)
  | .pair a b => .ok [a, b]
  | _ => .error .notIterable

/-! ### Filling -/

/-- The text of a description. -/
def describe : Value → Except RenderError String
  | .str s => .ok (Typescript.description s)
  | v => if v.isTruthy then .error .notText else .ok ""

/-- The text that is written into a hole. -/
def Hole.fill (scope : Scope) : Hole → Except RenderError String
  | plain r => do return (← r.value scope).text
  | escaped r => do return Typescript.escape (← r.value scope).text
  | described r => do describe (← r.value scope)
  | listed r => do
    return String.intercalate ", " ((← itemsOf (← r.value scope)).map Value.text)
  | quoted r => do return Typescript.quotedList ((← itemsOf (← r.value scope)).map Value.text)
  | union r n => do
    let v ← r.value scope
    let items ← if v.isTruthy then itemsOf v else pure []
    return Typescript.unionType (← items.mapM fun item => do return (← memberOf item n).text)
  | choice r yes no => do return if (← r.value scope).isTruthy then yes else no

/-- The condition holds.  A member that is missing is not the null value. -/
def Test.holds (scope : Scope) : Test → Except RenderError Bool
  | truthy r => do return (← r.value scope).isTruthy
  | notNull (.name n) =>
    match lookup? n scope with
    | some .null => .ok false
    | _ => .ok true
  | notNull (.field root n) => do
    match (← valueOf scope root).get? n with
    | some .null => return false
    | _ => return true

mutual

/-- The characters of a part. -/
def Part.fill : Part → Scope → Except RenderError (List Char)
  | .text s, _ => .ok s.toList
  | .hole h, scope => do return (← h.fill scope).toList
  | .group b body, scope => do return b.opener :: (← fillAll body scope) ++ [b.closer]
  | .literal quote body, scope => do return quote :: (← fillAll body scope) ++ [quote]
  | .each item r body, scope => do
    let items ← itemsOf (← r.value scope)
    return (← items.mapM fun v => fillAll body ((item, v) :: scope)).flatten
  | .when test body, scope => do if ← test.holds scope then fillAll body scope else return []

/-- The characters of parts in a row. -/
def fillAll : List Part → Scope → Except RenderError (List Char)
  | [], _ => .ok []
  | p :: ps, scope => do return (← p.fill scope) ++ (← fillAll ps scope)

end

/-- The text of a template in a scope. -/
def fill (template : List Part) (scope : Scope) : Except RenderError String :=
  (fillAll template scope).map String.ofList

end ApiNodes.Template
