import ApiNodes.Proofs.Path.Placeholders
import ApiNodes.Proofs.Typescript.Escaping
import ApiNodes.Proofs.Typescript.Locals

namespace ApiNodes.Typescript

open Api (PathPart Placed marks parts partsFrom placeholderNames)

/-!
# What a request path means

The request path is the body of a template literal.  Read as such it is the path under the root,
with the value of each placeholder in its place.

* `readBody` — how the body of a template literal is read;
* `parts_escapeChars` — escaping a path moves none of its placeholders;
* `readBody_requestPath` — the request path, read part by part;
* `requestPath_means` — its value, for all values of the placeholders.
-/

variable {path : String} {found : List PathVariable} {p : PathPart} {ps : List PathPart}
  {s : List Char}

/-! ### Reading template literals -/

/-- A part of the body of a template literal: a character, or the value of a variable. -/
inductive BodyPart
  | char (c : Char)
  | value (ident : String)
  deriving DecidableEq, Repr

/-- Read the body of a template literal.  `opened` holds the characters of a substitution that is
    open, the last first.  A backslash stands for the character that follows, and a text with a
    backquote of its own, or one that ends too early, is no body. -/
def bodyFrom (opened : Option (List Char)) : List Char → Option (List BodyPart)
  | [] => if opened.isSome then none else some []
  | c :: r =>
    match opened with
    | some seen =>
      if c = '}' then (bodyFrom none r).map (.value (.ofList seen.reverse) :: ·)
      else bodyFrom (some (c :: seen)) r
    | none =>
      match c, r with
      | '\x60', _ => none
      | '\\', [] => none
      | '\\', d :: r => (bodyFrom none r).map (.char d :: ·)
      | '$', '{' :: r => bodyFrom (some []) r
      | c, r => (bodyFrom none r).map (.char c :: ·)

/-- The parts of the body of a template literal. -/
def readBody (s : List Char) : Option (List BodyPart) := bodyFrom none s

/-- The text of a part when the variables are bound. -/
def BodyPart.text (bound : String → List Char) : BodyPart → List Char
  | char c => [c]
  | value ident => bound ident

/-- A character without a meaning of its own is itself. -/
theorem bodyFrom_cons {c : Char} (hspecial : isSpecial c = false) (hdollar : c ≠ '$') :
    bodyFrom none (c :: s) = (bodyFrom none s).map (.char c :: ·) := by
  have hback : c ≠ '\\' := by
    rintro rfl
    cases hspecial
  have hquote : c ≠ '\x60' := by
    rintro rfl
    cases hspecial
  conv_lhs => unfold bodyFrom
  dsimp only
  split
  · exact absurd rfl hquote
  · exact absurd rfl hback
  · exact absurd rfl hback
  · exact absurd rfl hdollar
  · rfl

/-- The escaped form of a text is read as the text. -/
theorem bodyFrom_escapeChars (hdollar : '$' ∉ s) (t : List Char) :
    bodyFrom none (escapeChars s ++ t) = (bodyFrom none t).map (s.map .char ++ ·) := by
  induction s with
  | nil => simp [escapeChars]
  | cons c s ih =>
    rw [List.mem_cons, not_or] at hdollar
    have hcons : bodyFrom none (escapeChars (c :: s) ++ t) =
        (bodyFrom none (escapeChars s ++ t)).map (.char c :: ·) := by
      rw [escapeChars_cons, List.append_assoc]
      split
      · rfl
      · rename_i hplain
        exact bodyFrom_cons (by simpa using hplain) (Ne.symm hdollar.1)
    rw [hcons, ih hdollar.2, Option.map_map]
    rfl

/-- A substitution is read as the value of its variable. -/
theorem bodyFrom_value (hclose : '}' ∉ s) (t : List Char) :
    bodyFrom none ('$' :: '{' :: s ++ '}' :: t) =
      (bodyFrom none t).map (.value (.ofList s) :: ·) := by
  -- inside the braces the name is collected, the last character first
  have hopen : ∀ seen, bodyFrom (some seen) (s ++ '}' :: t) =
      (bodyFrom none t).map (.value (.ofList (seen.reverse ++ s)) :: ·) := by
    induction s with
    | nil =>
      intro seen
      simp [bodyFrom]
    | cons c s ih =>
      intro seen
      rw [List.mem_cons, not_or] at hclose
      rw [List.cons_append, bodyFrom, if_neg (Ne.symm hclose.1), ih hclose.2]
      simp
  exact hopen []

/-! ### Escaped paths -/

/-- The escaped form of a part: the characters one by one, or a placeholder with an escaped name. -/
def escapedPart : PathPart → List PathPart
  | .plain c => (escapeChars [c]).map .plain
  | .hole name => [.hole (escapeChars name)]

/-- Ordinary characters are escaped one by one. -/
theorem flatMap_escapedPart_map_plain (s : List Char) :
    (s.map PathPart.plain).flatMap escapedPart = (escapeChars s).map .plain := by
  rw [List.flatMap_map, escapeChars, List.map_flatMap]
  congr 1
  funext c
  rw [escapedPart, escapeChars_cons]
  simp [escapeChars]

/-- What is seen behind an open brace when a text is escaped, the last first. -/
def escapedSeen (seen : List Char) : List Char := (escapeChars seen.reverse).reverse

/-- One more character is seen. -/
theorem escapedSeen_cons (c : Char) (seen : List Char) :
    escapedSeen (c :: seen) = (if isSpecial c then [c, '\\'] else [c]) ++ escapedSeen seen := by
  unfold escapedSeen
  rw [List.reverse_cons, escapeChars, List.flatMap_append, List.reverse_append]
  split <;> simp_all [escapeChars]

/-- The parts of an escaped text from a spot on, where the escaped form of what was seen is
    pending. -/
theorem partsFrom_escapeChars (opened : Option (List Char)) (s : List Char) :
    partsFrom (opened.map escapedSeen) (escapeChars s) =
      (partsFrom opened s).flatMap escapedPart := by
  induction s generalizing opened with
  | nil =>
    cases opened with
    | none => rfl
    | some seen =>
      have hseen := flatMap_escapedPart_map_plain ('{' :: seen.reverse)
      rw [escapeChars_cons, if_neg (by decide)] at hseen
      unfold partsFrom
      simpa [escapeChars, escapedSeen] using hseen.symm
  | cons c s ih =>
    rw [escapeChars_cons]
    by_cases hspecial : isSpecial c = true
    · -- neither the backslash nor the character is a brace
      rw [if_pos hspecial]
      have hopen : c ≠ '{' := by
        rintro rfl
        cases hspecial
      have hclose : c ≠ '}' := by
        rintro rfl
        cases hspecial
      cases opened with
      | none =>
        have ih := ih none
        have hpart : escapedPart (.plain c) = [.plain '\\', .plain c] := by
          rw [escapedPart, escapeChars_cons, if_pos hspecial]
          rfl
        rw [Option.map_none] at ih
        simp [partsFrom, hopen, ih, hpart]
      | some seen =>
        have ih := ih (some (c :: seen))
        rw [Option.map_some, escapedSeen_cons, if_pos hspecial] at ih
        simpa [partsFrom, hclose] using ih
    · rw [if_neg hspecial]
      cases opened with
      | none =>
        by_cases hopen : c = '{'
        · -- nothing is seen yet
          have ih : partsFrom (some []) (escapeChars s) = _ := ih (some [])
          simp [partsFrom, hopen, ih]
        · have ih := ih none
          have hpart : escapedPart (.plain c) = [.plain c] := by
            rw [escapedPart, escapeChars_cons, if_neg hspecial]
            rfl
          rw [Option.map_none] at ih
          simp [partsFrom, hopen, ih, hpart]
      | some seen =>
        by_cases hclose : c = '}'
        · have ih := ih none
          rw [Option.map_none] at ih
          simp [partsFrom, hclose, ih, escapedPart, escapedSeen]
        · have ih := ih (some (c :: seen))
          rw [Option.map_some, escapedSeen_cons, if_neg hspecial] at ih
          simpa [partsFrom, hclose] using ih

/-- **Escaping moves no placeholder.** -/
theorem parts_escapeChars (s : List Char) :
    parts (escapeChars s) = (parts s).flatMap escapedPart :=
  partsFrom_escapeChars none s

/-! ### Request paths -/

/-- A part of a request path as it is read. -/
def bodyPart (found : List PathVariable) (p : PathPart) : List BodyPart :=
  match p.name?.bind (variableOf? found) with
  | some ident => [.value ident]
  | none => p.text.map .char

/-- A part that can be read back: it has no dollar sign, and nothing in its name is escaped. -/
structure ReadablePart (p : PathPart) : Prop where
  dollar : '$' ∉ p.text
  name : ∀ name, p.name? = some name → ∀ c ∈ name, isSpecial c = false

/-- **A part is read** as itself, or as the value of its variable. -/
theorem bodyFrom_pathPart (hp : ReadablePart p) (hfound : ∀ v ∈ found, '}' ∉ v.ident.toList)
    (t : List Char) :
    bodyFrom none ((escapedPart p).flatMap (pathPart found) ++ t) =
      (bodyFrom none t).map (bodyPart found p ++ ·) := by
  cases p with
  | plain c =>
    have htext : (escapedPart (.plain c)).flatMap (pathPart found) = escapeChars [c] := by
      rw [escapedPart, List.flatMap_map]
      exact List.flatMap_singleton' (escapeChars [c])
    rw [htext]
    exact bodyFrom_escapeChars hp.dollar t
  | hole name =>
    -- nothing in the name is escaped, so that it is the name that variables are looked up by
    have hplain : ∀ c ∈ name, isSpecial c = false := by
      cases name with
      | nil => exact fun c hc => absurd hc List.not_mem_nil
      | cons d name => exact hp.name (d :: name) rfl
    rw [escapedPart, escapeChars_eq_self hplain, List.flatMap_singleton, pathPart, bodyPart]
    cases hvariable : (PathPart.hole name).name?.bind (variableOf? found) with
    | some ident =>
      obtain ⟨v, hv, rfl⟩ := mem_of_bind_variableOf? hvariable
      have hvalue := bodyFrom_value (hfound v hv) t
      rw [String.ofList_toList] at hvalue
      simpa using hvalue
    | none =>
      -- without a variable the placeholder stays as it is
      have htext : escapeChars (PathPart.hole name).text = (PathPart.hole name).text := by
        refine escapeChars_eq_self fun c hc => ?_
        rcases Api.mem_text_hole.mp hc with rfl | hc | rfl
        · decide
        · exact hplain c hc
        · decide
      have hread := bodyFrom_escapeChars hp.dollar t
      rwa [htext] at hread

/-- The parts are read one after the other. -/
theorem readBody_flatMap (hps : ∀ p ∈ ps, ReadablePart p)
    (hfound : ∀ v ∈ found, '}' ∉ v.ident.toList) :
    readBody ((ps.flatMap escapedPart).flatMap (pathPart found)) =
      some (ps.flatMap (bodyPart found)) := by
  induction ps with
  | nil => rfl
  | cons p ps ih =>
    have ih := ih fun q hq => hps q (List.mem_cons_of_mem p hq)
    rw [readBody] at ih ⊢
    rw [List.flatMap_cons, List.flatMap_append, List.flatMap_cons,
      bodyFrom_pathPart (hps p List.mem_cons_self) hfound, ih, Option.map_some]

/-- Two braces with nothing between them are read as two characters. -/
theorem flatMap_bodyPart_marks (s : List Char) :
    (marks s).flatMap (bodyPart found) = (parts s).flatMap (bodyPart found) := by
  rw [marks, List.flatMap_assoc]
  congr 1
  funext p
  cases p with
  | plain c => rfl
  | hole name =>
    cases name with
    | nil => rfl
    | cons d name => simp [PathPart.marks]

/-- The names of a path are those of the path under the root. -/
theorem placeholderNames_absolutePath (path : String) :
    placeholderNames (absolutePath path) = placeholderNames path := by
  unfold absolutePath
  split
  · rfl
  · rw [placeholderNames, String.toList_append, Api.parts_append (by decide),
      List.filterMap_append, List.filterMap_map]
    rfl

/-- The parts of a path can be read back when the path has no dollar sign and nothing in its names
    is escaped. -/
theorem readablePart_of_mem (hdollar : '$' ∉ path.toList)
    (hnames : ∀ name ∈ placeholderNames path, ∀ c ∈ name.toList, isSpecial c = false)
    (hp : p ∈ parts (absolutePath path).toList) : ReadablePart p where
  dollar := by
    intro hmem
    have hmem := Api.mem_iff_mem_parts.mpr ⟨p, hp, hmem⟩
    -- the root has none either
    unfold absolutePath at hmem
    split at hmem
    · exact hdollar hmem
    · rw [String.toList_append, List.mem_append] at hmem
      exact hmem.elim (by decide) hdollar
  name := by
    intro name hname c hc
    have hmem : .ofList name ∈ placeholderNames (absolutePath path) :=
      List.mem_filterMap.mpr ⟨p, hp, by rw [hname, Option.map_some]⟩
    rw [placeholderNames_absolutePath] at hmem
    exact hnames _ hmem c (by rwa [String.toList_ofList])

/-- **The request path, read part by part.** -/
theorem readBody_requestPath (hdollar : '$' ∉ path.toList)
    (hnames : ∀ name ∈ placeholderNames path, ∀ c ∈ name.toList, isSpecial c = false)
    (hfound : ∀ v ∈ found, '}' ∉ v.ident.toList) :
    readBody (requestPath path found).toList =
      some ((marks (absolutePath path).toList).flatMap (bodyPart found)) := by
  have hparts : ∀ p ∈ parts (absolutePath path).toList, ReadablePart p :=
    fun p hp => readablePart_of_mem hdollar hnames hp
  rw [requestPath, String.toList_ofList, parts_escapeChars, readBody_flatMap hparts hfound,
    flatMap_bodyPart_marks]

/-! ### The value of a request path -/

/-- A part stands for its character, or for the value of its name. -/
theorem flatMap_text_bodyPart {names : List String} {value bound : String → List Char}
    (hbound : ∀ v ∈ pathVariables names, bound v.ident = value v.name)
    (hp : ∀ name, p = .hole name → p.name? = some name ∧ .ofList name ∈ names) :
    (bodyPart (pathVariables names) p).flatMap (BodyPart.text bound) = p.filled value := by
  cases p with
  | plain c => rfl
  | hole name =>
    obtain ⟨hname, hmem⟩ := hp name rfl
    obtain ⟨v, hv, hvname, hvariable⟩ := exists_variableOf? hmem
    rw [String.toList_ofList] at hvariable
    rw [bodyPart, hname, Option.bind_some, hvariable]
    show bound v.ident ++ [] = value (.ofList name)
    rw [List.append_nil, hbound v hv, hvname]

/-- The body of a template literal means a path, whose placeholders have variables. -/
structure Means (found : List PathVariable) (body : List BodyPart) (ps : List PathPart) :
    Prop where
  /-- The body refers to the variables only. -/
  declared : ∀ ident, .value ident ∈ body → ident ∈ found.map (·.ident)
  /-- When each variable holds the value of its name, the literal is the path with every placeholder
      replaced by the value of its name. -/
  value : ∀ value bound : String → List Char, (∀ v ∈ found, bound v.ident = value v.name) →
    body.flatMap (BodyPart.text bound) = ps.flatMap (PathPart.filled value)

/-- The parts of a path mean the path. -/
theorem means_marks (path : String) (hfound : found = pathVariables (placeholderNames path)) :
    Means found ((marks (absolutePath path).toList).flatMap (bodyPart found))
      (marks (absolutePath path).toList) where
  declared := by
    intro ident hident
    obtain ⟨p, -, hp⟩ := List.mem_flatMap.mp hident
    unfold bodyPart at hp
    split at hp
    · rename_i hvariable
      obtain ⟨v, hv, hvident⟩ := mem_of_bind_variableOf? hvariable
      obtain rfl : ident = _ := by simpa using hp
      exact List.mem_map.mpr ⟨v, hv, hvident⟩
    · simp at hp
  value := by
    intro value bound hbound
    subst hfound
    rw [List.flatMap_assoc]
    refine List.flatMap_congr fun p hp => flatMap_text_bodyPart hbound fun name hname => ?_
    subst hname
    have hsome := Api.name?_of_mem_marks hp
    refine ⟨hsome, ?_⟩
    rw [← placeholderNames_absolutePath, Api.placeholderNames_eq]
    exact List.mem_filterMap.mpr ⟨_, hp, by rw [hsome, Option.map_some]⟩

/-- **What a request path means.**  Take a path without a dollar sign in whose placeholder names
    there is nothing to escape, and the variables of these names, which are all different.  The
    request path is the body of a template literal, without a backquote of its own, that means the
    path under the root. -/
theorem requestPath_means (path : String) (hdollar : '$' ∉ path.toList)
    (hnames : ∀ name ∈ placeholderNames path, ∀ c ∈ name.toList, isSpecial c = false) :
    ∃ ps body, Placed (absolutePath path).toList ps ∧
      placeholderNames path = ps.filterMap (fun p => p.name?.map String.ofList) ∧
      ((pathVariables (placeholderNames path)).map (·.ident)).Nodup ∧
      readBody (requestPath path (pathVariables (placeholderNames path))).toList = some body ∧
      Means (pathVariables (placeholderNames path)) body ps := by
  have hclosed : ∀ v ∈ pathVariables (placeholderNames path), '}' ∉ v.ident.toList := by
    intro v hv hmem
    have hword := all_ident_of_mem_pathVariables hv '}' hmem
    exact absurd hword (by decide)
  refine ⟨marks (absolutePath path).toList, _, Api.placed_marks _, ?_, ?_,
    readBody_requestPath hdollar hnames hclosed, means_marks path rfl⟩
  · rw [← placeholderNames_absolutePath, Api.placeholderNames_eq]
  · rw [(map_pathVariables _).2]
    exact Name.nodup_uniqueAll _ _

/-- A path outside the root with a quote, a backslash, an empty placeholder, a repeated name, a name
    with a brace in it and a brace that is not closed. -/
def awkwardPath : String :=
  "/\x27\\\x7b\x7d/\x7bid\x7d/\x7bid\x7d/\x7ba\x7bb\x7d\x7b"

/-- The path of the request refers to the first variable of a repeated name. -/
theorem requestPath_means_awkwardPath :
    '$' ∉ awkwardPath.toList ∧
      (∀ name ∈ placeholderNames awkwardPath, ∀ c ∈ name.toList, isSpecial c = false) ∧
      (pathVariables (placeholderNames awkwardPath)).map (·.ident) = ["id", "id2", "ab"] ∧
      requestPath awkwardPath (pathVariables (placeholderNames awkwardPath)) =
        "/api/v1/\\\x27\\\\\x7b\x7d/$\x7bid\x7d/$\x7bid\x7d/$\x7bab\x7d\x7b" ∧
      ∃ ps body, Placed (absolutePath awkwardPath).toList ps ∧
        readBody (requestPath awkwardPath (pathVariables (placeholderNames awkwardPath))).toList =
          some body ∧
        Means (pathVariables (placeholderNames awkwardPath)) body ps := by
  have hdollar : '$' ∉ awkwardPath.toList := by decide +kernel
  have hall : ((placeholderNames awkwardPath).all fun name =>
      name.toList.all fun c => !isSpecial c) = true := by
    decide +kernel
  have hnames : ∀ name ∈ placeholderNames awkwardPath, ∀ c ∈ name.toList, isSpecial c = false := by
    simpa only [List.all_eq_true, Bool.not_eq_true'] using hall
  obtain ⟨ps, body, hplaced, -, -, hbody, hmeans⟩ := requestPath_means awkwardPath hdollar hnames
  exact ⟨hdollar, hnames, by decide +kernel, by decide +kernel, ps, body, hplaced, hbody, hmeans⟩

end ApiNodes.Typescript
