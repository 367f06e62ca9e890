import ApiNodes.Proofs.Artifact.Agreement
import ApiNodes.Proofs.Artifact.Declarations
import ApiNodes.Proofs.Extraction.Plain

namespace ApiNodes.Artifact

open Api (Operation Resource placeholderNames)
open Template
open Typescript (PathVariable escape)

/-!
# Fields of the form

A user fills in a form: the selectors of resource and operation, and the fields that are shown for
the operation.  A method reads the fields by their names.  The names of the fields for path
parameters come from the document, and nothing keeps them apart from the names of the other fields.

* `Properties.formFields`, `hasFields_layout` — the fields that a properties file declares;
* `HandlerMethod.reads`, `hasReads` — the fields that a method reads;
* `nodup_visibleNames_iff`, `nodup_reads_iff` — when their names are different;
* `inputs_apart_iff` — both for extracted resources;
* `not_nodup_visibleNames_notesDocument` — two fields of one name that are shown together.
-/

variable {r : Resource} {o : Operation} {resources : List Resource} {document : Value}
  {config : Api.Config} {p : Properties} {m : HandlerMethod} {key name : String}

/-! ### Fields of a file -/

/-- A field of a form. -/
structure FormField where
  name : String
  /-- The keys of the operations that the field is shown for; a field without is always shown. -/
  operations : Option (List String)
  deriving DecidableEq, Repr

/-- The field is shown when the operation of a key is selected. -/
def FormField.isShown (f : FormField) (key : String) : Bool :=
  match f.operations with
  | none => true
  | some keys => decide (key ∈ keys)

/-- The operations in the condition under which a field is shown. -/
def FormField.condition (f : FormField) : String :=
  match f.operations with
  | none => ""
  | some keys => shownOperationsText keys

/-- The field of a path parameter. -/
def PathField.formField (f : PathField) : FormField := ⟨f.parameter.name, some f.operations⟩

/-- A field that is declared if there are operations for it. -/
def fieldFor (name : String) (keys : List String) : List FormField :=
  if keys.isEmpty then [] else [⟨name, some keys⟩]

/-- The fields of the properties of a resource: the selector of the operation, the path fields, the
    additional fields and the body. -/
def Properties.formFields (p : Properties) : List FormField :=
  ⟨"operation", none⟩ :: (p.pathFields.map PathField.formField ++
    (fieldFor "additionalFields" p.listOperations ++ fieldFor "body" p.writeOperations))

/-- A text declares a field of the form of a resource: it is an element that gives the name and the
    condition under which the field is shown. -/
def FormField.DeclaredBy (resource : String) (f : FormField) (text : String) : Prop :=
  ∃ comment label before after, text = codeLine 1 ("// " ++ comment) ++
    codeElement 1 (codeBlock .curly 1
      (codeEntry 2 "displayName" (codeLiteral label) ++
        codeEntry 2 "name" (codeLiteral (escape f.name)) ++ before ++
        shownText resource f.condition ++ after))

/-- A properties file has fields, in order, and no others: its array is made of their
    declarations. -/
def HasFields (r : Resource) (text : String) (fields : List FormField) : Prop :=
  ∃ head texts, text = head ++ codeLine 0 (constantDeclaration r ++ inBrackets .square "" ++ " = " ++
      codeBlock .square 0 (String.join texts) ++ ";") ∧
    List.Forall₂ (FormField.DeclaredBy r.name) fields texts

/-- The selector of the operation. -/
theorem declares_operationSelector (p : Properties) :
    FormField.DeclaredBy p.resource.name ⟨"operation", none⟩ (operationSelectorText p) := by
  have hname : escape "operation" = "operation" := by decide
  refine ⟨p.resource.displayName ++ " Operations", "Operation",
    codeEntry 2 "type" (codeLiteral "options") ++ codeEntry 2 "noDataExpression" "true",
    codeEntry 2 "options" (codeBlock .square 2 (String.join (p.options.map OperationOption.text))) ++
      codeEntry 2 "default" (codeLiteral p.defaultOperation), ?_⟩
  simp only [operationSelectorText, FormField.condition, hname, String.append_assoc]

/-- The field of a path parameter. -/
theorem declares_pathField (resource : String) (f : PathField) :
    FormField.DeclaredBy resource f.formField (f.text resource) := by
  refine ⟨f.parameter.displayName ++ " parameter", escape f.parameter.displayName,
    codeEntry 2 "type" (codeLiteral f.parameter.kind) ++
      codeEntry 2 "required" (if f.parameter.required then "true" else "false"),
    codeEntry 2 "default" (codeLiteral "") ++
      codeEntry 2 "description" (codeLiteral (Typescript.description f.parameter.description)), ?_⟩
  simp only [PathField.text, PathField.formField, FormField.condition, String.append_assoc]

/-- The collection of the additional fields. -/
theorem declares_additionalFields (p : Properties) :
    FormField.DeclaredBy p.resource.name ⟨"additionalFields", some p.listOperations⟩
      (additionalFieldsFieldText p) := by
  have hname : escape "additionalFields" = "additionalFields" := by decide
  have hcomment : "// Additional fields for list operations" =
      "// " ++ "Additional fields for list operations" := by decide
  refine ⟨"Additional fields for list operations", "Additional Fields",
    codeEntry 2 "type" (codeLiteral "collection") ++
      codeEntry 2 "placeholder" (codeLiteral "Add Field") ++
      codeEntry 2 "default" (inBrackets .curly ""),
    codeEntry 2 "options"
      (codeBlock .square 2 (String.join (p.additionalFields.map AdditionalField.text))), ?_⟩
  simp only [additionalFieldsFieldText, FormField.condition, hname, hcomment, String.append_assoc]

/-- The field of the body. -/
theorem declares_bodyField (p : Properties) :
    FormField.DeclaredBy p.resource.name ⟨"body", some p.writeOperations⟩ (bodyFieldText p) := by
  have hname : escape "body" = "body" := by decide
  have hcomment : "// Request body for create/update operations" =
      "// " ++ "Request body for create/update operations" := by decide
  refine ⟨"Request body for create/update operations", "Body",
    codeEntry 2 "type" (codeLiteral "json") ++ codeEntry 2 "default" (codeLiteral "\x7b\x7d"),
    codeEntry 2 "description" (codeLiteral "Request body data as JSON"), ?_⟩
  simp only [bodyFieldText, FormField.condition, hname, hcomment, String.append_assoc]

/-- A field that is declared if there are operations for it is declared by a text that stands there
    if there are. -/
theorem forall₂_fieldFor {resource text : String} {keys : List String}
    (h : FormField.DeclaredBy resource ⟨name, some keys⟩ text) :
    List.Forall₂ (FormField.DeclaredBy resource) (fieldFor name keys)
      (if keys.isEmpty then [] else [text]) := by
  unfold fieldFor
  split
  · exact .nil
  · exact .cons h .nil

/-- **The fields of a properties file.** -/
theorem hasFields_layout (p : Properties) : HasFields p.resource p.layout p.formFields := by
  have hpath : List.Forall₂ (FormField.DeclaredBy p.resource.name)
      (p.pathFields.map PathField.formField) (p.pathFields.map (PathField.text p.resource.name)) := by
    rw [List.forall₂_map_left_iff, List.forall₂_map_right_iff, List.forall₂_same]
    intro f _
    exact declares_pathField _ f
  obtain ⟨head, hlayout⟩ : ∃ head, p.layout = head ++ codeLine 0 (constantDeclaration p.resource ++
      inBrackets .square "" ++ " = " ++
      codeBlock .square 0 (operationSelectorText p ++
        String.join (p.pathFields.map (PathField.text p.resource.name)) ++
        (if p.listOperations.isEmpty then "" else additionalFieldsFieldText p) ++
        (if p.writeOperations.isEmpty then "" else bodyFieldText p)) ++ ";") := ⟨_, rfl⟩
  -- a field that is left out is an empty text there and no text here
  refine ⟨head, operationSelectorText p :: (p.pathFields.map (PathField.text p.resource.name) ++
    ((if p.listOperations.isEmpty then [] else [additionalFieldsFieldText p]) ++
      if p.writeOperations.isEmpty then [] else [bodyFieldText p])), ?_, ?_⟩
  · have hjoin (keys : List String) (text : String) :
        String.join (if keys.isEmpty then [] else [text]) = if keys.isEmpty then "" else text := by
      split <;> simp
    rw [hlayout, String.join_cons, String.join_append, String.join_append, hjoin, hjoin]
    simp only [String.append_assoc]
  · refine .cons (declares_operationSelector p) (List.rel_append hpath ?_)
    exact List.rel_append (forall₂_fieldFor (declares_additionalFields p))
      (forall₂_fieldFor (declares_bodyField p))

/-- The fields of the properties of a resource. -/
theorem hasFields_of_ofResource? (hp : Properties.ofResource? r = some p) :
    HasFields r p.layout p.formFields := by
  have hresource : p.resource = r := by
    obtain ⟨first, -, rfl⟩ := Option.map_eq_some_iff.mp hp
    rfl
  exact hresource ▸ hasFields_layout p

/-! ### Fields of an operation -/

/-- The names of the additional fields and of the body, where there are any. -/
def blockNames (hasFields hasBody : Bool) : List String :=
  (if hasFields = true then ["additionalFields"] else []) ++ if hasBody = true then ["body"] else []

/-- What is in the names of the blocks. -/
theorem mem_blockNames {hasFields hasBody : Bool} :
    name ∈ blockNames hasFields hasBody ↔
      (hasFields = true ∧ name = "additionalFields") ∨ (hasBody = true ∧ name = "body") := by
  cases hasFields <;> cases hasBody <;> simp [blockNames]

/-- The names of what is shown when an operation is selected: the selector of the resource, which
    stands in the registry of properties, and the fields that are shown for the key. -/
def Properties.visibleNames (p : Properties) (key : String) : List String :=
  "resource" :: (p.formFields.filter (·.isShown key)).map (·.name)

/-- A name of a path parameter that no other input of the operation has. -/
structure IsOwnInput (o : Operation) (name : String) : Prop where
  notResource : name ≠ "resource"
  notOperation : name ≠ "operation"
  notAdditionalFields : o.isList = true → name ≠ "additionalFields"
  notBody : o.isWrite = true → name ≠ "body"

/-- A field that is declared for operations is shown for these. -/
theorem names_fieldFor (name : String) (keys : List String) (key : String) :
    ((fieldFor name keys).filter (·.isShown key)).map (·.name) =
      if key ∈ keys then [name] else [] := by
  cases keys with
  | nil => rfl
  | cons k keys =>
    by_cases hkey : key ∈ k :: keys <;> simp [fieldFor, FormField.isShown, hkey]

/-- The path fields that are shown for an operation are those of its path. -/
theorem mem_shown_pathFields (hkeys : (r.operations.map (·.name)).Nodup) (ho : o ∈ r.operations) :
    name ∈ ((pathFields r).filter fun f => decide (o.name ∈ f.operations)).map (·.parameter.name) ↔
      name ∈ o.pathParameters.map (·.name) := by
  have hcollects := collects_pathFields r
  simp only [List.mem_map, List.mem_filter, decide_eq_true_eq]
  constructor
  · rintro ⟨f, ⟨hf, hshown⟩, rfl⟩
    obtain ⟨q, huse, hq⟩ := (hcollects.operations f hf _).mp hshown
    obtain ⟨o', ho', hname, hqo⟩ := mem_pathUses.mp huse
    -- the operation that uses the parameter is this one, as it has its key
    rw [eq_of_key hkeys ho' ho hname] at hqo
    exact ⟨q, hqo, hq⟩
  · rintro ⟨q, hq, rfl⟩
    have huse : (o.name, q) ∈ pathUses r.operations := mem_pathUses.mpr ⟨o, ho, rfl, hq⟩
    obtain ⟨f, hf, hname⟩ := hcollects.complete _ _ huse
    exact ⟨f, ⟨hf, (hcollects.operations f hf _).mpr ⟨q, huse, hname.symm⟩⟩, hname⟩

/-- What is shown for an operation. -/
theorem visibleNames_eq (hkeys : (r.operations.map (·.name)).Nodup)
    (hp : Properties.ofResource? r = some p) (ho : o ∈ r.operations) :
    p.visibleNames o.name = "resource" :: "operation" ::
      (((pathFields r).filter fun f => decide (o.name ∈ f.operations)).map (·.parameter.name) ++
        blockNames o.isList o.isWrite) := by
  have hshown (test : Operation → Bool) := mem_keys_filter_iff hkeys ho test
  obtain ⟨first, -, rfl⟩ := Option.map_eq_some_iff.mp hp
  have hselector : FormField.isShown ⟨"operation", none⟩ o.name = true := rfl
  have hpath (f : PathField) : f.formField.isShown o.name = decide (o.name ∈ f.operations) := rfl
  have hname (f : PathField) : f.formField.name = f.parameter.name := rfl
  simp only [Properties.visibleNames, Properties.formFields, List.filter_cons, hselector, if_true,
    List.map_cons, List.filter_append, List.map_append, names_fieldFor, hshown, List.filter_map,
    Function.comp_def, hpath, List.map_map, hname, blockNames]

/-- **The names of what is shown are different** if and only if no path parameter has the name of
    another input of the operation. -/
theorem nodup_visibleNames_iff (hkeys : (r.operations.map (·.name)).Nodup)
    (hp : Properties.ofResource? r = some p) (ho : o ∈ r.operations) :
    (p.visibleNames o.name).Nodup ↔ ∀ name ∈ o.pathParameters.map (·.name), IsOwnInput o name := by
  have hpath : (((pathFields r).filter fun f => decide (o.name ∈ f.operations)).map
      (·.parameter.name)).Nodup :=
    (collects_pathFields r).nodup.sublist (List.filter_sublist.map _)
  have hfixed : ∀ hasFields hasBody,
      ("resource" :: "operation" :: blockNames hasFields hasBody).Nodup := by decide
  -- the fixed names stand around those of the path fields
  rw [visibleNames_eq hkeys hp ho, List.Perm.nodup_iff
    (List.perm_middle.trans (List.perm_middle.cons _)).symm, List.nodup_append]
  constructor
  · rintro ⟨-, -, hapart⟩ name hname
    have hne := hapart name ((mem_shown_pathFields hkeys ho).mpr hname)
    exact
      { notResource := hne _ (by simp), notOperation := hne _ (by simp)
        notAdditionalFields := fun hlist => hne _ (by simp [mem_blockNames, hlist])
        notBody := fun hwrite => hne _ (by simp [mem_blockNames, hwrite]) }
  · intro hown
    refine ⟨hpath, hfixed _ _, ?_⟩
    intro name hname other hother
    have hname := hown name ((mem_shown_pathFields hkeys ho).mp hname)
    rw [List.mem_cons, List.mem_cons, mem_blockNames] at hother
    rcases hother with rfl | rfl | ⟨hlist, rfl⟩ | ⟨hwrite, rfl⟩
    · exact hname.notResource
    · exact hname.notOperation
    · exact hname.notAdditionalFields hlist
    · exact hname.notBody hwrite

/-! ### Fields that are read -/

/-- The names of the fields that a method reads: of the path parameters, of the additional fields
    and of the body. -/
def HandlerMethod.reads (m : HandlerMethod) : List String :=
  m.pathVariables.map (·.name) ++ blockNames m.hasAdditionalFields m.hasBody

/-- A text reads a field: it begins with a constant, whose value is that of the field. -/
def ReadsField (name text : String) : Prop :=
  ∃ ident before after type rest, text = codeLine 2 ("const " ++ ident ++
    " = executeFunctions.getNodeParameter" ++
      inBrackets .round (before ++ codeLiteral (escape name) ++ "," ++ after) ++ type) ++ rest

/-- A method reads fields, in order, and no others: its body is made of what reads them, and of its
    request. -/
def HandlerMethod.HasReads (m : HandlerMethod) (names : List String) : Prop :=
  ∃ head texts, m.text = "\n" ++ codeLine 1 (head ++
      codeBlock .curly 1 (String.join texts ++ m.requestText)) ∧
    List.Forall₂ ReadsField names texts

/-- The constant of a path parameter is read from its field. -/
theorem readsField_pathConstant (v : PathVariable) (rest : String) :
    ReadsField v.name (pathConstant v ++ rest) := by
  have hindex : ", itemIndex" = "," ++ " itemIndex" := by decide
  refine ⟨v.ident, "", " itemIndex", " as string;", rest, ?_⟩
  simp only [pathConstant, hindex, String.append_assoc, String.empty_append]

/-- The additional fields are read from their collection. -/
theorem readsField_additionalFields : ReadsField "additionalFields" additionalFieldsText := by
  have hname : escape "additionalFields" = "additionalFields" := by decide
  refine ⟨"additionalFields", "\n" ++ tabs 3,
    "\n" ++ codeLine 3 "itemIndex," ++ codeLine 3 (inBrackets .curly "" ++ ",") ++ tabs 2,
    " as IDataObject;", "\n", ?_⟩
  have hconst : "const additionalFields = executeFunctions.getNodeParameter" =
      "const " ++ ("additionalFields" ++ " = executeFunctions.getNodeParameter") := by decide
  simp only [additionalFieldsText, hconst, hname, codeBlock, codeLine, String.append_assoc]

/-- The body is read from its field. -/
theorem readsField_body : ReadsField "body" bodyText := by
  have hname : escape "body" = "body" := by decide
  have hindex : ", itemIndex, " = "," ++ " itemIndex, " := by decide
  have hconst : "const rawBody = executeFunctions.getNodeParameter" =
      "const " ++ ("rawBody" ++ " = executeFunctions.getNodeParameter") := by decide
  obtain ⟨rest, htext⟩ : ∃ rest, bodyText =
      codeLine 2 ("const rawBody = executeFunctions.getNodeParameter" ++
        inBrackets .round (codeLiteral "body" ++ ", itemIndex, " ++ codeLiteral "\x7b\x7d") ++
        " as string | IDataObject;") ++ rest := ⟨_, String.append_assoc ..⟩
  refine ⟨"rawBody", "", " itemIndex, " ++ codeLiteral "\x7b\x7d", " as string | IDataObject;",
    rest, ?_⟩
  simp only [htext, hconst, hindex, hname, String.append_assoc, String.empty_append]

/-- The constants of the path are read from the fields of the path parameters. -/
theorem exists_reads_pathConstantsText (found : List PathVariable) :
    ∃ texts, pathConstantsText found = String.join texts ∧
      List.Forall₂ ReadsField (found.map (·.name)) texts := by
  obtain rfl | ⟨before, last, rfl⟩ := List.eq_nil_or_concat' found
  · exact ⟨[], by simp [pathConstantsText], .nil⟩
  · -- the empty line belongs to the last constant
    refine ⟨before.map (pathConstant · ++ "") ++ [pathConstant last ++ "\n"], ?_, ?_⟩
    · simp [pathConstantsText, String.append_assoc]
    · rw [List.map_append]
      refine List.rel_append ?_ (.cons (readsField_pathConstant last _) .nil)
      rw [List.forall₂_map_left_iff, List.forall₂_map_right_iff, List.forall₂_same]
      intro v _
      exact readsField_pathConstant v ""

/-- **The fields that a method reads.** -/
theorem hasReads (m : HandlerMethod) : m.HasReads m.reads := by
  obtain ⟨texts, htexts, hpath⟩ := exists_reads_pathConstantsText m.pathVariables
  obtain ⟨head, htext⟩ : ∃ head, m.text = "\n" ++ codeLine 1 (head ++
      codeBlock .curly 1 (pathConstantsText m.pathVariables ++
        (if m.hasAdditionalFields then additionalFieldsText else "") ++
        (if m.hasBody then bodyText else "") ++ m.requestText)) := ⟨_, rfl⟩
  refine ⟨head, texts ++ ((if m.hasAdditionalFields = true then [additionalFieldsText] else []) ++
    if m.hasBody = true then [bodyText] else []), ?_, List.rel_append hpath (List.rel_append ?_ ?_)⟩
  · have hjoin (b : Bool) (text : String) :
        String.join (if b = true then [text] else []) = if b = true then text else "" := by
      split <;> simp
    rw [htext, htexts, String.join_append, String.join_append, hjoin, hjoin]
    simp only [String.append_assoc]
  · split
    · exact .cons readsField_additionalFields .nil
    · exact .nil
  · split
    · exact .cons readsField_body .nil
    · exact .nil

/-- **The names of what is read are different** if and only if those of the path parameters are,
    and none of them is that of another field that the method reads. -/
theorem nodup_reads_iff (m : HandlerMethod) :
    m.reads.Nodup ↔ (m.pathVariables.map (·.name)).Nodup ∧
      ∀ name ∈ m.pathVariables.map (·.name),
        (m.hasAdditionalFields = true → name ≠ "additionalFields") ∧
        (m.hasBody = true → name ≠ "body") := by
  have hblocks : ∀ hasFields hasBody, (blockNames hasFields hasBody).Nodup := by decide
  rw [HandlerMethod.reads, List.nodup_append]
  constructor
  · rintro ⟨hpath, -, hapart⟩
    refine ⟨hpath, ?_⟩
    intro name hname
    exact ⟨fun hfields => hapart name hname _ (mem_blockNames.mpr (.inl ⟨hfields, rfl⟩)),
      fun hbody => hapart name hname _ (mem_blockNames.mpr (.inr ⟨hbody, rfl⟩))⟩
  · rintro ⟨hpath, hapart⟩
    refine ⟨hpath, hblocks _ _, ?_⟩
    intro name hname other hother
    rcases mem_blockNames.mp hother with ⟨hfields, rfl⟩ | ⟨hbody, rfl⟩
    · exact (hapart name hname).1 hfields
    · exact (hapart name hname).2 hbody

/-! ### Extracted resources -/

/-- The inputs of an operation: the fields that are shown for it and those that its method reads,
    and when the names of either are different. -/
structure InputsOf (p : Properties) (o : Operation) (m : HandlerMethod) : Prop where
  serves : m.Serves o
  reads : m.HasReads m.reads
  /-- The names of what is shown are different unless a path parameter has one of the others. -/
  shownApart : (p.visibleNames o.name).Nodup ↔ ∀ name ∈ placeholderNames o.path, IsOwnInput o name
  /-- The names of what is read are different unless a path parameter has one of the others. -/
  readApart : m.reads.Nodup ↔ (placeholderNames o.path).Nodup ∧
    ∀ name ∈ placeholderNames o.path,
      (o.isList = true ∨ o.queryParameters ≠ [] → name ≠ "additionalFields") ∧
      (o.isWrite = true → name ≠ "body")

/-- The inputs of an operation of a resource with different keys. -/
theorem inputsOf_ofOperation (hkeys : (r.operations.map (·.name)).Nodup)
    (hp : Properties.ofResource? r = some p) (ho : o ∈ r.operations)
    (hpath : o.pathParameters.map (·.name) = placeholderNames o.path) (name : String) :
    InputsOf p o (.ofOperation name o) where
  serves := serves_ofOperation name o
  reads := hasReads _
  shownApart := by rw [nodup_visibleNames_iff hkeys hp ho, hpath]
  readApart := by
    have hnames := (serves_ofOperation name o).pathVariables
    have hfields : (HandlerMethod.ofOperation name o).hasAdditionalFields = true ↔
        o.isList = true ∨ o.queryParameters ≠ [] := by
      simp [HandlerMethod.ofOperation, or_comm]
    have hbody : (HandlerMethod.ofOperation name o).hasBody = o.isWrite := rfl
    rw [nodup_reads_iff, hnames, hpath, hbody]
    simp only [hfields]

/-- **The inputs of an extracted operation share no name** unless a placeholder of its path has the
    name of a selector, of the additional fields or of the body. -/
theorem inputs_apart_iff (h : Api.extract config document = .ok resources) (hr : r ∈ resources) :
    ∃ (handler : Handler) (properties : Properties), handlerText r = .ok handler.layout ∧
      propertiesText r = .ok properties.layout ∧
      HasFields r properties.layout properties.formFields ∧
      List.Forall₂ (fun o m => Contains handler.layout m.text ∧ InputsOf properties o m)
        r.operations handler.methods := by
  have hkeys := Api.nodup_keys h hr
  obtain ⟨p, hp, htext⟩ := exists_properties h hr
  refine ⟨Handler.ofResource r, p, (Handler.ofResource r).text_eq, htext,
    hasFields_of_ofResource? hp, ?_⟩
  apply forall₂_methods
  intro o ho name hm
  exact ⟨contains_methodText hm,
    inputsOf_ofOperation hkeys hp ho (Api.names_pathParameters h hr ho) name⟩

/-- Notes that are looked up and replaced by what is written in them. -/
def notesDocument : Value :=
  .object [("paths", .object [("/api/v1/notes/\x7bbody\x7d", .object
    [("get", .object []), ("put", .object [])])])]

theorem inputs_apart_iff_notesDocument :
    ∃ resources, Api.extract {} notesDocument = .ok resources ∧ ∃ r ∈ resources,
      r.operations.map (fun o => (o.name, o.isWrite, placeholderNames o.path)) =
        [("get", false, ["body"]), ("put", true, ["body"])] ∧
      ∃ (handler : Handler) (properties : Properties), handlerText r = .ok handler.layout ∧
        propertiesText r = .ok properties.layout ∧
        HasFields r properties.layout properties.formFields ∧
        List.Forall₂ (fun o m => Contains handler.layout m.text ∧ InputsOf properties o m)
          r.operations handler.methods := by
  have hoperations : ((Api.extract {} notesDocument).toOption.map fun resources =>
      resources.map fun r => r.operations.map fun o => (o.name, o.isWrite, placeholderNames o.path)) =
      some [[("get", false, ["body"]), ("put", true, ["body"])]] := by
    decide +kernel
  obtain ⟨resources, h, r, hr, heq⟩ := Api.exists_mem_of_toOption hoperations
  exact ⟨resources, h, r, hr, heq, inputs_apart_iff h hr⟩

/-- **Two fields of one name that are shown together**: the path parameter of the notes, and what is
    to be written in them. -/
theorem not_nodup_visibleNames_notesDocument :
    ∃ resources, Api.extract {} notesDocument = .ok resources ∧ ∃ r ∈ resources,
      ∃ properties : Properties, propertiesText r = .ok properties.layout ∧
        HasFields r properties.layout properties.formFields ∧
        properties.visibleNames "get" = ["resource", "operation", "body"] ∧
        properties.visibleNames "put" = ["resource", "operation", "body", "body"] ∧
        ¬ (properties.visibleNames "put").Nodup := by
  have hvisible : ((Api.extract {} notesDocument).toOption.map fun resources =>
      resources.map fun r => (Properties.ofResource? r).map fun p =>
        (p.visibleNames "get", p.visibleNames "put")) =
      some [some (["resource", "operation", "body"], ["resource", "operation", "body", "body"])] := by
    decide +kernel
  obtain ⟨resources, h, r, hr, heq⟩ := Api.exists_mem_of_toOption hvisible
  obtain ⟨p, hp, htext⟩ := exists_properties h hr
  rw [hp, Option.map_some, Option.some_inj] at heq
  obtain ⟨hget, hput⟩ := Prod.mk.inj heq
  refine ⟨resources, h, r, hr, p, htext, hasFields_of_ofResource? hp, hget, hput, ?_⟩
  rw [hput]
  decide

end ApiNodes.Artifact
