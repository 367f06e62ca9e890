import ApiNodes.Proofs.Artifact.Agreement
import ApiNodes.Proofs.Artifact.Declarations
import ApiNodes.Proofs.Extraction.Plain
import ApiNodes.Proofs.Template.Words
import ApiNodes.Proofs.Typescript.LocalNames

namespace ApiNodes.Artifact

open Api (Operation Resource placeholderNames)
open Template
open Typescript (PathVariable Unguarded handlerLocals identifier pathVariables)

/-!
# What path constants capture

A method declares a constant for each path parameter, in the scope in which its body uses other
names: its parameters, its own constants, what the file imports and what the language provides.  The
constants are kept from the first two by a list of names, which has none of the others.

* `methodBody`, `exists_bodyText` — the body of a method, as it stands in its text;
* `HandlerMethod.usedNames` — the names that the body uses;
* `mem_usedNames_iff` — those that the list does not have;
* `capture_nothing_iff` — when no constant has one of them;
* `paths_capture_nothing_iff` — which placeholders that is, for extracted operations;
* `captures_functionsDocument` — constants that capture the functions of the body.
-/

variable {r : Resource} {o : Operation} {resources : List Resource} {document : Value}
  {config : Api.Config} {m : HandlerMethod} {scope : Scope} {w : String} {names : List String}

/-! ### Names that a body uses -/

/-- The body of a method. -/
def methodBody : List Part :=
  [pathConstants, [.when (.truthy (.field "method" "additional_fields")) additionalFieldsConstant],
    [.when (.truthy (.field "method" "has_body")) bodyConstants], request].flatten

/-- The body is what stands between the last brackets of a method. -/
theorem operationMethod_eq : operationMethod = .text "\n" ::
    line 1 [.text "private async ", .hole (.plain (.field "method" "name")),
      plainBlock .round 1
        ["executeFunctions: IExecuteFunctions,", "credentials: INalpeironCredentials,",
         "accessToken: string,", "itemIndex: number,"],
      .text ": Promise<any> ", block .curly 1 [methodBody]] := rfl

/-- The body of a method stands in its text. -/
theorem exists_bodyText (m : HandlerMethod) :
    ∃ text, fill methodBody [("method", m.toValue)] = .ok text ∧
      Contains m.text (codeBlock .curly 1 text) := by
  have hfill : fill operationMethod [("method", m.toValue)] = .ok m.text := fill_operationMethod m
  have hname : memberOf m.toValue "name" = .ok (.str m.name) := by
    simp [HandlerMethod.toValue]
  cases hbody : fill methodBody [("method", m.toValue)] with
  | error e =>
    simp [operationMethod_eq, hname, hbody] at hfill
  | ok text =>
    simp [operationMethod_eq, hname, hbody] at hfill
    refine ⟨text, rfl, ?_⟩
    rw [← hfill]
    exact ((((((Contains.refl _).right _).right _).right _).right _).codeLine 1).right _

/-- The words of bodies that do not name values: key words and types. -/
def otherWords : List String :=
  ["const", "return", "await", "typeof", "as", "string", "IDataObject"]

/-- The names that the body of a method uses, or declares on its own, in the order of its text. -/
def HandlerMethod.usedNames (m : HandlerMethod) : List String :=
  (allWords [("method", m.toValue)] methodBody).filter (· ∉ otherWords)

/-- The words of the constants of the path. -/
theorem words_pathConstants {vs : List Value}
    (h : (Ref.field "method" "path_params").value scope = .ok (.list vs)) :
    allWords scope pathConstants =
      vs.flatMap fun _ => ["const", "executeFunctions", "itemIndex", "as", "string"] := by
  have hbreak : allWords scope [.text "\n"] = [] := rfl
  rw [pathConstants, allWords, allWords, allWords, words_when h, hbreak, ite_self, List.append_nil,
    List.append_nil]
  exact words_each h fun _ => rfl

/-- The words of the constant of the additional fields. -/
theorem words_additionalFieldsConstant : allWords scope additionalFieldsConstant =
    ["const", "additionalFields", "executeFunctions", "itemIndex", "as", "IDataObject"] := by
  rfl

/-- The words of the constants of the body. -/
theorem words_bodyConstants : allWords scope bodyConstants =
    ["const", "rawBody", "executeFunctions", "itemIndex", "as", "string", "IDataObject",
     "const", "body", "typeof", "rawBody", "jsonParse", "IDataObject", "rawBody", "rawBody"] := by
  rfl

/-- The words of a request. -/
theorem words_request {hasBody hasFields : Bool}
    (hbody : (Ref.field "method" "has_body").value scope = .ok (.bool hasBody))
    (hfields : (Ref.field "method" "additional_fields").value scope = .ok (.bool hasFields)) :
    allWords scope request =
      ["return", "await", "makeAuthenticatedRequest", "accessToken", "credentials",
       "executeFunctions", if hasBody = true then "body" else "undefined"] ++
        if hasFields = true then ["additionalFields"] else [] := by
  -- what depends on the scope is settled first, the rest is fixed text
  simp only [request, line, block, List.flatten_cons, List.flatten_nil, List.cons_append,
    List.nil_append, allWords, allWords_append, words_text, words_group, words_choice hbody,
    words_when hfields]
  cases hasBody <;> cases hasFields <;> rfl

/-- The words of the body of a method. -/
theorem words_methodBody (m : HandlerMethod) :
    allWords [("method", m.toValue)] methodBody =
      (m.pathVariables.flatMap fun _ => ["const", "executeFunctions", "itemIndex", "as", "string"]) ++
      ((if m.hasAdditionalFields = true then
          ["const", "additionalFields", "executeFunctions", "itemIndex", "as", "IDataObject"]
        else []) ++
      ((if m.hasBody = true then
          ["const", "rawBody", "executeFunctions", "itemIndex", "as", "string", "IDataObject",
           "const", "body", "typeof", "rawBody", "jsonParse", "IDataObject", "rawBody", "rawBody"]
        else []) ++
      (["return", "await", "makeAuthenticatedRequest", "accessToken", "credentials",
        "executeFunctions", if m.hasBody = true then "body" else "undefined"] ++
          if m.hasAdditionalFields = true then ["additionalFields"] else []))) := by
  have hvariables : (Ref.field "method" "path_params").value [("method", m.toValue)] =
      .ok (.list (m.pathVariables.map variableValue)) := by
    simp [HandlerMethod.toValue]
  have hfields : (Ref.field "method" "additional_fields").value [("method", m.toValue)] =
      .ok (.bool m.hasAdditionalFields) := by
    simp [HandlerMethod.toValue]
  have hbody : (Ref.field "method" "has_body").value [("method", m.toValue)] =
      .ok (.bool m.hasBody) := by
    simp [HandlerMethod.toValue]
  rw [methodBody, List.flatten_cons, List.flatten_cons, List.flatten_cons, List.flatten_cons,
    List.flatten_nil, List.append_nil, allWords_append, allWords_append, allWords_append,
    words_pathConstants hvariables, allWords, allWords, words_when hfields,
    words_additionalFieldsConstant, allWords, allWords, words_when hbody, words_bodyConstants,
    words_request hbody hfields, List.flatMap_map, List.append_nil, List.append_nil]
  rfl

/-- **The names that a body uses and that constants are not kept from** are the function of the
    request, and that which reads the body or the word that stands for none. -/
theorem mem_usedNames_iff (hw : w ∉ handlerLocals) :
    w ∈ m.usedNames ↔ w = "makeAuthenticatedRequest" ∨ (m.hasBody = true ∧ w = "jsonParse") ∨
      (m.hasBody = false ∧ w = "undefined") := by
  rw [HandlerMethod.usedNames, List.mem_filter, words_methodBody]
  constructor
  · rintro ⟨hmem, hother⟩
    -- all other words of the body are in one of the two lists
    have hnone : ¬ (w ∈ handlerLocals ∨ w ∈ otherWords) := not_or.mpr ⟨hw, by simpa using hother⟩
    have hpath : ∀ w ∈ ["const", "executeFunctions", "itemIndex", "as", "string"],
        w ∈ handlerLocals ∨ w ∈ otherWords := by decide
    have hfields : ∀ w ∈ ["const", "additionalFields", "executeFunctions", "itemIndex", "as",
        "IDataObject"], w ∈ handlerLocals ∨ w ∈ otherWords := by decide
    have hbody : ∀ w ∈ ["const", "rawBody", "executeFunctions", "itemIndex", "as", "string",
        "IDataObject", "const", "body", "typeof", "rawBody", "jsonParse", "IDataObject", "rawBody",
        "rawBody"], w = "jsonParse" ∨ w ∈ handlerLocals ∨ w ∈ otherWords := by decide
    have hrequest : ∀ b : Bool, ∀ w ∈ ["return", "await", "makeAuthenticatedRequest", "accessToken",
        "credentials", "executeFunctions", if b = true then "body" else "undefined"],
        w = "makeAuthenticatedRequest" ∨ (b = false ∧ w = "undefined") ∨
          w ∈ handlerLocals ∨ w ∈ otherWords := by decide
    simp only [List.mem_append, List.mem_ite_nil_right, List.mem_singleton] at hmem
    rcases hmem with hmem | ⟨-, hmem⟩ | ⟨hb, hmem⟩ | hmem | ⟨-, rfl⟩
    · obtain ⟨_, -, hmem⟩ := List.mem_flatMap.mp hmem
      exact absurd (hpath w hmem) hnone
    · exact absurd (hfields w hmem) hnone
    · exact .inr (.inl ⟨hb, (hbody w hmem).resolve_right hnone⟩)
    · rcases hrequest m.hasBody w hmem with hfound | hnothing | hmem
      · exact .inl hfound
      · exact .inr (.inr hnothing)
      · exact absurd hmem hnone
    · exact absurd (by decide) hw
  · rintro (rfl | ⟨hb, rfl⟩ | ⟨hb, rfl⟩)
    · exact ⟨by simp, by decide⟩
    · exact ⟨by simp [hb], by decide⟩
    · exact ⟨by simp [hb], by decide⟩

/-! ### Capture -/

/-- A name of a path parameter whose constant hides nothing that the body of the method of an
    operation uses. -/
structure HidesNothing (o : Operation) (name : String) : Prop where
  request : identifier name ≠ "makeAuthenticatedRequest"
  reader : o.isWrite = true → identifier name ≠ "jsonParse"
  nothing : o.isWrite = false → identifier name ≠ "undefined"

/-- **No constant has a name that the body uses** if and only if the names of the path parameters
    hide nothing. -/
theorem capture_nothing_iff (hbody : m.hasBody = o.isWrite) :
    (∀ v ∈ pathVariables names, v.ident ∉ m.usedNames) ↔ ∀ name ∈ names, HidesNothing o name := by
  have hrequest : Unguarded "makeAuthenticatedRequest" := ⟨by decide, by decide, by decide⟩
  have hreader : Unguarded "jsonParse" := ⟨by decide, by decide, by decide⟩
  have hnothing : Unguarded "undefined" := ⟨by decide, by decide, by decide⟩
  constructor
  · intro hfree name hname
    -- a constant that has a word that is used is there as soon as a name has it
    have hne {w : String} (hw : Unguarded w) (hused : w ∈ m.usedNames) : identifier name ≠ w := by
      intro hident
      obtain ⟨v, hv, rfl⟩ := (Typescript.exists_ident_iff hw).mpr ⟨name, hname, hident⟩
      exact hfree v hv hused
    exact
      { request := hne hrequest ((mem_usedNames_iff (by decide)).mpr (.inl rfl))
        reader := fun hwrite =>
          hne hreader ((mem_usedNames_iff (by decide)).mpr (.inr (.inl ⟨hbody.trans hwrite, rfl⟩)))
        nothing := fun hread =>
          hne hnothing ((mem_usedNames_iff (by decide)).mpr (.inr (.inr ⟨hbody.trans hread, rfl⟩))) }
  · intro hhide v hv hused
    have hnamed {w : String} (hw : Unguarded w) (hident : v.ident = w) :
        ∃ name ∈ names, HidesNothing o name ∧ identifier name = w := by
      obtain ⟨name, hname, hw⟩ := (Typescript.exists_ident_iff hw).mp ⟨v, hv, hident⟩
      exact ⟨name, hname, hhide name hname, hw⟩
    rw [mem_usedNames_iff (Typescript.ident_not_mem_handlerLocals hv), hbody] at hused
    rcases hused with hident | ⟨hwrite, hident⟩ | ⟨hread, hident⟩
    · obtain ⟨name, -, hhide, hname⟩ := hnamed hrequest hident
      exact hhide.request hname
    · obtain ⟨name, -, hhide, hname⟩ := hnamed hreader hident
      exact hhide.reader hwrite hname
    · obtain ⟨name, -, hhide, hname⟩ := hnamed hnothing hident
      exact hhide.nothing hread hname

/-! ### Extracted operations -/

/-- The constants of the path in the method of an operation: they stand in its text, with the body
    that uses the names, and when they capture none of these. -/
structure PathLocals (o : Operation) (m : HandlerMethod) : Prop where
  serves : m.Serves o
  body : ∃ text, fill methodBody [("method", m.toValue)] = .ok text ∧
    Contains m.text (codeBlock .curly 1 text)
  declared : ∀ v ∈ m.pathVariables, Contains m.text (pathConstant v)
  /-- The constants have none of the names that the body uses unless a placeholder hides one. -/
  capture : (∀ v ∈ m.pathVariables, v.ident ∉ m.usedNames) ↔
    ∀ name ∈ placeholderNames o.path, HidesNothing o name

/-- The constants stand in the text of their method. -/
theorem contains_pathConstant {v : PathVariable} (hv : v ∈ m.pathVariables) :
    Contains m.text (pathConstant v) := by
  have hconstants : Contains (pathConstantsText m.pathVariables) (pathConstant v) :=
    (contains_join (List.mem_map_of_mem hv)).left _
  exact ((((((hconstants.left _).left _).left _).codeBlock .curly 1).right _).codeLine 1).right _

/-- **The constants of an extracted operation capture nothing** unless a placeholder of its path has
    the function of the request for its identifier, or what the body of its method reads or stands
    for none with. -/
theorem paths_capture_nothing_iff (h : Api.extract config document = .ok resources)
    (hr : r ∈ resources) :
    ∃ handler : Handler, handlerText r = .ok handler.layout ∧
      List.Forall₂ (fun o m => Contains handler.layout m.text ∧ PathLocals o m)
        r.operations handler.methods := by
  refine ⟨Handler.ofResource r, (Handler.ofResource r).text_eq, forall₂_methods ?_⟩
  intro o ho name hm
  refine ⟨contains_methodText hm,
    { serves := serves_ofOperation name o, body := exists_bodyText _
      declared := fun v hv => contains_pathConstant hv, capture := ?_ }⟩
  rw [← Api.names_pathParameters h hr ho]
  exact capture_nothing_iff rfl

/-- Functions that are looked up by the names of two that the methods use. -/
def functionsDocument : Value :=
  .object [("paths", .object
    [("/api/v1/functions/\x7bjsonParse\x7d", .object [("get", .object []), ("put", .object [])]),
     ("/api/v1/functions/\x7bmakeAuthenticatedRequest\x7d", .object [("delete", .object [])])])]

theorem paths_capture_nothing_iff_functionsDocument :
    ∃ resources, Api.extract {} functionsDocument = .ok resources ∧ ∃ r ∈ resources,
      r.operations.map (fun o => (o.name, o.isWrite, placeholderNames o.path)) =
        [("get", false, ["jsonParse"]), ("put", true, ["jsonParse"]),
         ("delete", false, ["makeAuthenticatedRequest"])] ∧
      ∃ handler : Handler, handlerText r = .ok handler.layout ∧
        List.Forall₂ (fun o m => Contains handler.layout m.text ∧ PathLocals o m)
          r.operations handler.methods := by
  have hoperations : ((Api.extract {} functionsDocument).toOption.map fun resources =>
      resources.map fun r => r.operations.map fun o => (o.name, o.isWrite, placeholderNames o.path)) =
      some [[("get", false, ["jsonParse"]), ("put", true, ["jsonParse"]),
        ("delete", false, ["makeAuthenticatedRequest"])]] := by
    decide +kernel
  obtain ⟨resources, h, r, hr, heq⟩ := Api.exists_mem_of_toOption hoperations
  exact ⟨resources, h, r, hr, heq, paths_capture_nothing_iff h hr⟩

/-- **Constants that capture the functions of the body**: the one that reads the body where there is
    a body, and the one that sends the request. -/
theorem captures_functionsDocument :
    ∃ resources, Api.extract {} functionsDocument = .ok resources ∧ ∃ r ∈ resources,
      ∃ handler : Handler, handlerText r = .ok handler.layout ∧
        handler.methods.map (fun m => (m.operation,
            (m.pathVariables.map (·.ident)).filter (· ∈ m.usedNames))) =
          [("get", []), ("put", ["jsonParse"]), ("delete", ["makeAuthenticatedRequest"])] ∧
        ∃ m ∈ handler.methods, Contains handler.layout m.text ∧
          ∃ v ∈ m.pathVariables, Contains m.text (pathConstant v) ∧ v.ident ∈ m.usedNames := by
  have hcaptured : ((Api.extract {} functionsDocument).toOption.map fun resources =>
      resources.map fun r => (Handler.ofResource r).methods.map fun m => (m.operation,
        (m.pathVariables.map (·.ident)).filter (· ∈ m.usedNames))) =
      some [[("get", []), ("put", ["jsonParse"]), ("delete", ["makeAuthenticatedRequest"])]] := by
    decide +kernel
  obtain ⟨resources, h, r, hr, heq⟩ := Api.exists_mem_of_toOption hcaptured
  -- the method of the last entry of the table
  have hlast : ("delete", ["makeAuthenticatedRequest"]) ∈ (Handler.ofResource r).methods.map fun m =>
      (m.operation, (m.pathVariables.map (·.ident)).filter (· ∈ m.usedNames)) := by
    rw [heq]
    decide
  obtain ⟨m, hm, hentry⟩ := List.mem_map.mp hlast
  obtain ⟨-, hidents⟩ := Prod.mk.inj hentry
  have hident : "makeAuthenticatedRequest" ∈
      (m.pathVariables.map (·.ident)).filter (· ∈ m.usedNames) := by
    rw [hidents]
    exact List.mem_singleton_self _
  obtain ⟨hmem, hused⟩ := List.mem_filter.mp hident
  obtain ⟨v, hv, hname⟩ := List.mem_map.mp hmem
  refine ⟨resources, h, r, hr, Handler.ofResource r, (Handler.ofResource r).text_eq, heq, m, hm,
    contains_methodText hm, v, hv, contains_pathConstant hv, ?_⟩
  rw [hname]
  exact of_decide_eq_true hused

end ApiNodes.Artifact
