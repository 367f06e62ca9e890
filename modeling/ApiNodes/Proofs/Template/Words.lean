import ApiNodes.Name.Words
import ApiNodes.Proofs.Template.Layout

namespace ApiNodes.Template

/-!
# Words of templates

What a template writes on its own, in the order of the filled text: the words of its code, other
than those inside literals, those that name members, and what is filled into its holes.

* `codeWords` — the words of a piece of code;
* `Part.words`, `allWords` — the words of a template in a scope;
* `words_when`, `words_each`, `words_choice` — the parts whose words depend on the scope.
-/

variable {scope : Scope} {ps qs body : List Part} {s item yes no : String} {b : Bracket} {h : Hole}
  {r : Ref} {v : Value} {vs : List Value} {ws : List String}

/-! ### Words of code -/

/-- The words of code, after some characters of it: the word that is begun, the last character
    first, and whether it names a member. -/
def wordsFrom (member : Bool) (begun : List Char) : List Char → List String
  | [] => if member || begun.isEmpty then [] else [.ofList begun.reverse]
  | c :: s =>
    if Name.isWordChar c then wordsFrom member (c :: begun) s
    else (if member || begun.isEmpty then [] else [.ofList begun.reverse]) ++
      wordsFrom (c == '.') [] s

/-- The words of code, other than those that stand right after a period and name members. -/
def codeWords (s : String) : List String := wordsFrom false [] s.toList

example : codeWords "return await send(functions.helpers, body);" =
    ["return", "await", "send", "functions", "body"] := by decide

/-! ### Words of parts -/

/-- The words of a hole: of a choice, those of the word that is chosen.  What else is filled in does
    not come from the template. -/
def Hole.words (scope : Scope) : Hole → List String
  | .choice r yes no =>
    match r.value scope with
    | .ok v => codeWords (if v.isTruthy then yes else no)
    | .error _ => []
  | _ => []

mutual

/-- The words of a part.  A literal has none. -/
def Part.words (scope : Scope) : Part → List String
  | .text s => codeWords s
  | .hole h => h.words scope
  | .group _ body => allWords scope body
  | .literal _ _ => []
  | .each item r body =>
    match (r.value scope).bind itemsOf with
    | .ok items => items.flatMap fun v => allWords ((item, v) :: scope) body
    | .error _ => []
  | .when test body =>
    match test.holds scope with
    | .ok true => allWords scope body
    | _ => []

/-- The words of parts in a row. -/
def allWords (scope : Scope) : List Part → List String
  | [] => []
  | p :: ps => p.words scope ++ allWords scope ps

end

/-- Parts in a row have the words of all of them. -/
theorem allWords_append : allWords scope (ps ++ qs) = allWords scope ps ++ allWords scope qs := by
  induction ps with
  | nil => rfl
  | cons p ps ih => rw [List.cons_append, allWords, allWords, ih, List.append_assoc]

/-- Fixed text has its words. -/
theorem words_text : (Part.text s).words scope = codeWords s := rfl

/-- Parts between brackets have their words. -/
theorem words_group : (Part.group b body).words scope = allWords scope body := rfl

/-- A choice has the words of what is chosen. -/
theorem words_choice (h : r.value scope = .ok v) :
    (Part.hole (.choice r yes no)).words scope =
      codeWords (if v.isTruthy = true then yes else no) := by
  rw [Part.words, Hole.words, h]

/-- Parts on a condition have their words where it holds. -/
theorem words_when (h : r.value scope = .ok v) :
    (Part.when (.truthy r) body).words scope =
      if v.isTruthy = true then allWords scope body else [] := by
  have hholds : (Test.truthy r).holds scope = .ok v.isTruthy := by
    rw [holds_truthy, h]
    rfl
  rw [Part.words, hholds]
  cases v.isTruthy <;> rfl

/-- Parts that have the same words for all values have them for every item of a list. -/
theorem words_each (h : r.value scope = .ok (.list vs))
    (hbody : ∀ v, allWords ((item, v) :: scope) body = ws) :
    (Part.each item r body).words scope = vs.flatMap fun _ => ws := by
  have hitems : itemsOf (.list vs) = .ok vs := rfl
  rw [Part.words, h, Except.bind, hitems]
  exact congrArg (List.flatMap · vs) (funext hbody)

end ApiNodes.Template
