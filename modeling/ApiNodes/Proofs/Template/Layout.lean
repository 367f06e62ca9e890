import ApiNodes.Template.Code
import Mathlib.Tactic.Common

namespace ApiNodes.Template

/-!
# Layout of filled templates

A template that is filled in is laid out in the pieces of generated code: lines, entries and
blocks.  The equations for `fill` take a template apart piece by piece, so that the text of a
template can be given beside it as the layout of its values.
-/

variable {scope : Scope} {ps qs body : List Part} {s : String} {b : Bracket} {item : String}
  {r : Ref}

/-! ### Pieces of code -/

/-- One line at a depth. -/
def codeLine (depth : Nat) (s : String) : String := tabs depth ++ s ++ "\n"

/-- An entry of an object. -/
def codeEntry (depth : Nat) (name value : String) : String :=
  tabs depth ++ name ++ ": " ++ value ++ ",\n"

/-- An element of an array. -/
def codeElement (depth : Nat) (value : String) : String := tabs depth ++ value ++ ",\n"

/-- Text between quotes. -/
def inQuotes (quote : Char) (s : String) : String := .singleton quote ++ s ++ .singleton quote

/-- A literal. -/
def codeLiteral (s : String) : String := inQuotes '\x27' s

/-- Text between brackets. -/
def inBrackets (b : Bracket) (s : String) : String :=
  .singleton b.opener ++ s ++ .singleton b.closer

/-- Lines between brackets; the closing bracket stands at the given depth. -/
def codeBlock (b : Bracket) (depth : Nat) (lines : String) : String :=
  inBrackets b ("\n" ++ lines ++ tabs depth)

/-- An import of names from a module. -/
def codeImport (keyword names source : String) : String :=
  keyword ++ " " ++ inBrackets .curly (" " ++ names ++ " ") ++ " from " ++
    codeLiteral source ++ ";\n"

/-- A comment of lines. -/
def codeComment (lines : List String) : String :=
  "/**\n" ++ String.join (lines.map fun l => " * " ++ l ++ "\n") ++ " */\n"

/-! ### Filling

The equations are for simp: what is known to be filled comes out as a row of texts, which associates
to the right. -/

attribute [simp] String.append_assoc round square curly plainBlock

/-- What is made of a result that is there. -/
@[simp] theorem map_ok {α β : Type} (f : α → β) (a : α) :
    (Except.ok a : Except RenderError α).map f = .ok (f a) := rfl

/-- What follows a result that is there. -/
@[simp] theorem bind_ok {α β : Type} (f : α → Except RenderError β) (a : α) :
    (Except.ok a : Except RenderError α).bind f = f a := rfl

/-- Nothing is made of a hole that cannot be filled. -/
@[simp] theorem map_error {α β : Type} (f : α → β) (e : RenderError) :
    (Except.error e : Except RenderError α).map f = .error e := rfl

/-- Nothing follows it. -/
@[simp] theorem bind_error {α β : Type} (f : α → Except RenderError β) (e : RenderError) :
    (Except.error e : Except RenderError α).bind f = .error e := rfl

/-- Nothing is filled with nothing. -/
@[simp] theorem fill_nil : fill [] scope = .ok "" := rfl

/-- Parts in a row are filled one after the other. -/
@[simp] theorem fill_append :
    fill (ps ++ qs) scope = (fill ps scope).bind fun s => (fill qs scope).map (s ++ ·) := by
  have key : fillAll (ps ++ qs) scope =
      (fillAll ps scope).bind fun s => (fillAll qs scope).map (s ++ ·) := by
    induction ps with
    | nil =>
      rw [List.nil_append, fillAll]
      cases fillAll qs scope <;> rfl
    | cons p ps ih =>
      rw [List.cons_append, fillAll, fillAll, ih]
      cases p.fill scope with
      | error e => rfl
      | ok s =>
        cases fillAll ps scope with
        | error e => rfl
        | ok t =>
          cases fillAll qs scope with
          | error e => rfl
          | ok u => simp [bind, Except.bind, pure, Except.pure, Except.map]
  rw [fill, fill, fill, key]
  cases fillAll ps scope with
  | error e => rfl
  | ok s =>
    cases fillAll qs scope with
    | error e => rfl
    | ok t => simp

/-- Parts in a row that are filled are filled each. -/
theorem exists_of_fill_append (h : fill (ps ++ qs) scope = .ok s) :
    ∃ t u, fill ps scope = .ok t ∧ fill qs scope = .ok u ∧ s = t ++ u := by
  rw [fill_append] at h
  cases hp : fill ps scope with
  | error e => simp [hp] at h
  | ok t =>
    cases hq : fill qs scope with
    | error e => simp [hp, hq] at h
    | ok u =>
      simp only [hp, hq, bind_ok, map_ok, Except.ok.injEq] at h
      exact ⟨t, u, rfl, rfl, h.symm⟩

/-- One part in front of others. -/
theorem fill_cons {p : Part} :
    fill (p :: ps) scope =
      (p.fill scope).bind fun s => (fill ps scope).map (String.ofList s ++ ·) := by
  rw [fill, fill, fillAll]
  cases p.fill scope with
  | error e => rfl
  | ok s =>
    cases fillAll ps scope with
    | error e => rfl
    | ok t => simp [bind, Except.bind, pure, Except.pure, Except.map]

/-- Fixed text stays. -/
@[simp] theorem fill_text : fill (.text s :: ps) scope = (fill ps scope).map (s ++ ·) := by
  rw [fill_cons, Part.fill, Except.bind, String.ofList_toList]

/-- A hole is filled with its text. -/
@[simp] theorem fill_hole {h : Hole} :
    fill (.hole h :: ps) scope = (h.fill scope).bind fun s => (fill ps scope).map (s ++ ·) := by
  rw [fill_cons, Part.fill]
  cases h.fill scope with
  | error e => rfl
  | ok s => simp [bind, Except.bind, pure, Except.pure]

/-- Characters between two others. -/
private theorem ofList_between (a b : Char) (s : List Char) :
    String.ofList (a :: s ++ [b]) = .singleton a ++ .ofList s ++ .singleton b := by
  rw [← String.toList_inj]
  simp only [String.toList_append, String.toList_ofList, String.toList_singleton,
    List.cons_append, List.nil_append]

/-- Parts between brackets. -/
@[simp] theorem fill_group :
    fill (.group b body :: ps) scope =
      (fill body scope).bind fun s => (fill ps scope).map (inBrackets b s ++ ·) := by
  have hbody : fill body scope = (fillAll body scope).map String.ofList := rfl
  rw [fill_cons, Part.fill, hbody]
  cases fillAll body scope with
  | error e => rfl
  | ok s =>
    simp only [bind, Except.bind, pure, Except.pure, Except.map, inBrackets, ofList_between]

/-- Parts between quotes. -/
@[simp] theorem fill_literal {quote : Char} :
    fill (.literal quote body :: ps) scope =
      (fill body scope).bind fun s => (fill ps scope).map (inQuotes quote s ++ ·) := by
  have hbody : fill body scope = (fillAll body scope).map String.ofList := rfl
  rw [fill_cons, Part.fill, hbody]
  cases fillAll body scope with
  | error e => rfl
  | ok s =>
    simp only [bind, Except.bind, pure, Except.pure, Except.map, inQuotes, ofList_between]

/-- Parts on a condition. -/
@[simp] theorem fill_when {test : Test} :
    fill (.when test body :: ps) scope = (test.holds scope).bind fun holds =>
      (if holds then fill body scope else .ok "").bind fun s => (fill ps scope).map (s ++ ·) := by
  have hbody : fill body scope = (fillAll body scope).map String.ofList := rfl
  rw [fill_cons, Part.fill, hbody]
  cases test.holds scope with
  | error e => rfl
  | ok holds =>
    cases holds with
    | false => rfl
    | true =>
      cases fillAll body scope with
      | error e => rfl
      | ok s => simp [bind, Except.bind, Except.map]

/-- Parts for every item of a list, each of which has its layout. -/
theorem fill_each {α : Type} {xs : List α} {value : α → Value} (ps : List Part)
    (layout : α → String)
    (hr : r.value scope = .ok (.list (xs.map value)))
    (hbody : ∀ x ∈ xs, fill body ((item, value x) :: scope) = .ok (layout x)) :
    fill (.each item r body :: ps) scope =
      (fill ps scope).map (String.join (xs.map layout) ++ ·) := by
  have key : (xs.map value).mapM (fun v => fillAll body ((item, v) :: scope)) =
      Except.ok (xs.map fun x => (layout x).toList) := by
    clear hr
    induction xs with
    | nil => rfl
    | cons x xs ih =>
      have hx : fillAll body ((item, value x) :: scope) = .ok (layout x).toList := by
        have := hbody x List.mem_cons_self
        rw [fill] at this
        cases hfill : fillAll body ((item, value x) :: scope) with
        | error e => simp [hfill, Except.map] at this
        | ok s =>
          simp only [hfill, Except.map, Except.ok.injEq] at this
          rw [← this, String.toList_ofList]
      rw [List.map_cons, List.mapM_cons, hx, ih fun y hy => hbody y (List.mem_cons_of_mem x hy)]
      rfl
  have hitems : itemsOf (.list (xs.map value)) = .ok (xs.map value) := rfl
  have hjoin : String.ofList (xs.map fun x => (layout x).toList).flatten =
      String.join (xs.map layout) := by
    rw [← String.toList_inj, String.toList_ofList, String.toList_join, List.flatMap_map]
    rfl
  rw [fill_cons, Part.fill, hr]
  simp only [bind, Except.bind, hitems, key, pure, Except.pure, hjoin]

/-! ### Pieces of templates -/

/-- A line of a template. -/
@[simp] theorem fill_line {depth : Nat} :
    fill (line depth body) scope = (fill body scope).map (codeLine depth) := by
  rw [line, List.cons_append, fill_text, fill_append, fill_text, fill_nil]
  cases fill body scope with
  | error e => rfl
  | ok s => simp [codeLine]

/-- A line of fixed text. -/
@[simp] theorem fill_plainLine {depth : Nat} :
    fill (plainLine depth s) scope = .ok (codeLine depth s) := by
  simp [plainLine, codeLine]

/-- An entry of an object. -/
@[simp] theorem fill_entry {depth : Nat} {name : String} :
    fill (entry depth name body) scope = (fill body scope).map (codeEntry depth name) := by
  rw [entry, List.cons_append, fill_text, fill_append, fill_text, fill_nil]
  cases fill body scope with
  | error e => rfl
  | ok s => simp [codeEntry]

/-- An element of an array. -/
@[simp] theorem fill_element {depth : Nat} {p : Part} :
    fill (element depth p) scope = (fill [p] scope).map (codeElement depth) := by
  have happend : element depth p = .text (tabs depth) :: ([p] ++ [.text ",\n"]) := rfl
  rw [happend, fill_text, fill_append, fill_text, fill_nil]
  cases fill [p] scope with
  | error e => rfl
  | ok s => simp [codeElement]

/-- Lines between brackets. -/
@[simp] theorem fill_block {depth : Nat} {lines : List (List Part)} :
    fill (block b depth lines :: ps) scope = (fill lines.flatten scope).bind fun s =>
      (fill ps scope).map (codeBlock b depth s ++ ·) := by
  rw [block, fill_group, List.cons_append, fill_text, fill_append, fill_text, fill_nil]
  cases fill lines.flatten scope with
  | error e => rfl
  | ok s => simp [codeBlock]

/-- A fixed literal. -/
@[simp] theorem fill_fixed :
    fill (literal s :: ps) scope = (fill ps scope).map (codeLiteral s ++ ·) := by
  simp [literal, codeLiteral]

/-- A literal that is filled in. -/
@[simp] theorem fill_filled {h : Hole} :
    fill (filled h :: ps) scope =
      (h.fill scope).bind fun s => (fill ps scope).map (codeLiteral s ++ ·) := by
  rw [filled, fill_literal, fill_hole, fill_nil]
  cases h.fill scope with
  | error e => rfl
  | ok s => simp [codeLiteral]

/-- An import. -/
@[simp] theorem fill_importOf {keyword : String} {source : List Part} :
    fill (importOf keyword ps source) scope = (fill ps scope).bind fun names =>
      (fill source scope).map (codeImport keyword names) := by
  simp only [importOf, curly, fill_text, fill_group, List.cons_append, fill_append, fill_literal,
    fill_nil]
  cases fill ps scope with
  | error e => rfl
  | ok names =>
    cases fill source scope with
    | error e => rfl
    | ok package => simp [codeImport, codeLiteral]

/-- An import of fixed names. -/
@[simp] theorem fill_plainImport {keyword names source : String} :
    fill (plainImport keyword names source) scope = .ok (codeImport keyword names source) := by
  simp [plainImport]

/-- A comment, by its lines. -/
theorem fill_comment {lines : List (List Part)} {texts : List String}
    (h : List.Forall₂ (fun l s => fill l scope = .ok s) lines texts) :
    fill (comment lines) scope = .ok (codeComment texts) := by
  have key : fill (lines.flatMap fun l => .text " * " :: l ++ [.text "\n"]) scope =
      .ok (String.join (texts.map fun l => " * " ++ l ++ "\n")) := by
    induction h with
    | nil => rfl
    | cons hl _ ih =>
      rw [List.flatMap_cons, fill_append, ih, List.cons_append, fill_text, fill_append, hl]
      simp
  rw [comment, List.cons_append, fill_text, fill_append, key]
  simp [codeComment]

/-- A comment of fixed lines. -/
theorem fill_plainComment (lines : List String) :
    fill (plainComment lines) scope = .ok (codeComment lines) := by
  refine fill_comment ?_
  induction lines with
  | nil => exact .nil
  | cons s lines ih => exact .cons (by simp) ih

/-! ### Values -/

/-- The value at a name is that of the first pair with it. -/
@[simp] theorem lookup?_cons {n k : String} {v : Value} :
    lookup? n ((k, v) :: scope) = if k = n then some v else lookup? n scope := rfl

/-- The value of a name is that of the first pair with it. -/
@[simp] theorem value_name {n k : String} {v : Value} :
    (Ref.name n).value ((k, v) :: scope) = if k = n then .ok v else (Ref.name n).value scope := by
  by_cases h : k = n <;> simp [Ref.value, valueOf, lookup?, h]

/-- The member of a name is that of the value of the first pair with the name. -/
@[simp] theorem value_field {n k root : String} {v : Value} :
    (Ref.field root n).value ((k, v) :: scope) =
      if k = root then memberOf v n else (Ref.field root n).value scope := by
  by_cases h : k = root <;> simp [Ref.value, valueOf, lookup?, h, bind, Except.bind]

/-- The members of an object are its fields. -/
theorem get?_object {fields : List (String × Value)} {n : String} :
    (Value.object fields).get? n = lookup? n fields := by
  have key : Value.atKey? n (fields.map fun field => (.str field.1, field.2)) =
      lookup? n fields := by
    induction fields with
    | nil => rfl
    | cons field fields ih =>
      rw [List.map_cons, Value.atKey?, lookup?, ih]
      simp [Value.isStr]
  rw [Value.object, Value.get?, Value.entries?_map, Option.bind_some, key]

/-- The members of an object are its fields. -/
@[simp] theorem memberOf_object {fields : List (String × Value)} {n : String} :
    memberOf (.object fields) n = match lookup? n fields with
      | some v => .ok v
      | none => .error (.undefined (.member (.object fields) n)) := by
  cases h : lookup? n fields <;> simp only [memberOf, get?_object, h]

/-- The text of a value that is there. -/
@[simp] theorem fill_plain {r : Ref} :
    (Hole.plain r).fill scope = (r.value scope).map Value.text := by
  rw [Hole.fill]
  cases r.value scope <;> rfl

/-- Its escaped text. -/
@[simp] theorem fill_escaped {r : Ref} :
    (Hole.escaped r).fill scope = (r.value scope).map fun v => Typescript.escape v.text := by
  rw [Hole.fill]
  cases r.value scope <;> rfl

/-- A value counts as present. -/
@[simp] theorem holds_truthy {r : Ref} :
    (Test.truthy r).holds scope = (r.value scope).map Value.isTruthy := by
  rw [Test.holds]
  cases r.value scope <;> rfl

/-- One of two words, by a condition that is a value. -/
@[simp] theorem fill_choice {r : Ref} {yes no : String} :
    (Hole.choice r yes no).fill scope =
      (r.value scope).map fun v => if v.isTruthy then yes else no := by
  rw [Hole.fill]
  cases r.value scope <;> rfl

/-- The texts of a list, with commas between them. -/
theorem fill_listed {r : Ref} {xs : List String} (h : r.value scope = .ok (.list (xs.map .str))) :
    (Hole.listed r).fill scope = .ok (String.intercalate ", " xs) := by
  have hitems : itemsOf (.list (xs.map .str)) = .ok (xs.map .str) := rfl
  have htexts : (xs.map Value.str).map Value.text = xs := by simp [Function.comp_def, Value.text]
  simp only [Hole.fill, h, bind, Except.bind, hitems, pure, Except.pure, htexts]

/-- The texts of a list as the body of an array. -/
theorem fill_quoted {r : Ref} {xs : List String} (h : r.value scope = .ok (.list (xs.map .str))) :
    (Hole.quoted r).fill scope = .ok (Typescript.quotedList xs) := by
  have hitems : itemsOf (.list (xs.map .str)) = .ok (xs.map .str) := rfl
  have htexts : (xs.map Value.str).map Value.text = xs := by simp [Function.comp_def, Value.text]
  simp only [Hole.fill, h, bind, Except.bind, hitems, pure, Except.pure, htexts]

/-- The description of a value that is there. -/
theorem fill_described {r : Ref} :
    (Hole.described r).fill scope = (r.value scope).bind describe := by
  rw [Hole.fill]
  cases r.value scope <;> rfl

/-- A text member of every item of a list, as a union of literals. -/
theorem fill_union {α : Type} {r : Ref} {n : String} {xs : List α} {value : α → Value}
    {member : α → String} (h : r.value scope = .ok (.list (xs.map value)))
    (hmember : ∀ x ∈ xs, memberOf (value x) n = .ok (.str (member x))) :
    (Hole.union r n).fill scope = .ok (Typescript.unionType (xs.map member)) := by
  have hmembers : (xs.map value).mapM (fun item => (memberOf item n).map Value.text) =
      .ok (xs.map member) := by
    clear h
    induction xs with
    | nil => rfl
    | cons x xs ih =>
      rw [List.map_cons, List.mapM_cons, hmember x List.mem_cons_self,
        ih fun y hy => hmember y (List.mem_cons_of_mem x hy)]
      rfl
  have hbody : (fun item => do return (← memberOf item n).text) =
      fun item => (memberOf item n).map Value.text := by
    funext item
    cases memberOf item n <;> rfl
  rw [Hole.fill, h, hbody]
  cases xs with
  | nil => rfl  -- a list without items does not count as present
  | cons x xs =>
    have htruthy : (Value.list ((x :: xs).map value)).isTruthy = true := rfl
    have hitems : itemsOf (.list ((x :: xs).map value)) = .ok ((x :: xs).map value) := rfl
    simp only [bind, Except.bind, htruthy, if_true, hitems, hmembers, pure, Except.pure]

/-- The text of a text. -/
@[simp] theorem text_str : (Value.str s).text = s := rfl

end ApiNodes.Template
