import ApiNodes.Artifact.Handler
import ApiNodes.Artifact.Properties
import ApiNodes.Artifact.Registry
import ApiNodes.Proofs.Ordered
import ApiNodes.Proofs.Artifact.PathFields
import ApiNodes.Proofs.Extraction.Plain
import ApiNodes.Proofs.Template.Check
import ApiNodes.Proofs.Typescript.Locals

namespace ApiNodes.Artifact

open Api (PlainOperation PlainResource)
open Name (Wordy)
open Template (Env Shape ScopeFits checkAll fits_record_nil fits_record_cons)
open Typescript (Passes Prose Remark TextKind)

/-!
# The artifacts of plain resources

The scopes that the templates are filled with, by the shapes of their values, and the check
of every template against them.

* `handlerText_sound`, `propertiesText_sound`, `registryFiles_sound` — the files of plain
  resources can be rendered, and a review passes over them from code to code.
-/

variable {r : Api.Resource} {resources : List Api.Resource} {n label : String}

/-! ### Values -/

/-- A value that is written as a name. -/
def word : Shape := .text .word

/-- A text is a name. -/
theorem fits_word {s : String} (h : Wordy s.toList) : word.Fits (.str s) := by
  rw [word, Shape.Fits]
  exact h

/-- Nothing is asked of a value. -/
theorem fits_any {v : Value} : Shape.any.Fits v := by
  rw [Shape.Fits]
  trivial

/-- A list whose items are of a shape. -/
theorem fits_items {α : Type} {shape : Shape} {f : α → Value} {xs : List α}
    (h : ∀ x ∈ xs, shape.Fits (f x)) : (Shape.items shape).Fits (.list (xs.map f)) := by
  rw [Shape.Fits]
  refine ⟨_, rfl, fun v hv => ?_⟩
  obtain ⟨x, hx, rfl⟩ := List.mem_map.mp hv
  exact h x hx

/-- A row of names. -/
theorem fits_words {xs : List String} (h : ∀ x ∈ xs, Wordy x.toList) :
    (Shape.items word).Fits (.list (xs.map .str)) :=
  fits_items fun x hx => fits_word (h x hx)

/-- Fixed text is a name where all its characters are. -/
theorem wordy_of_all {s : String} (h : s.toList.all Name.isWordy = true) : Wordy s.toList :=
  fun c hc => List.all_eq_true.mp h c hc

/-- A template that checks can be filled, and its text passes from code to code. -/
theorem fill_sound {template : List Template.Part} {scope : Template.Scope} (env : Env)
    (hcheck : checkAll env .code template = some .code) (hs : ScopeFits env scope) :
    ∃ text, Template.fill template scope = .ok text ∧ Passes .code text.toList .code := by
  obtain ⟨s, hfill, hpass⟩ := Template.checkAll_sound hs hcheck
  refine ⟨.ofList s, by rw [Template.fill, hfill]; rfl, ?_⟩
  rwa [String.toList_ofList]

/-- What is known of a resource. -/
def resourceShape : Shape :=
  .record [("name", word), ("display_name", word), ("description", .prose), ("file_name", word),
    ("handler_class_name", word), ("properties_export_name", word)]

/-- A plain resource has the shape. -/
theorem fits_resource (h : PlainResource r) : resourceShape.Fits r.toValue := by
  refine fits_record_cons rfl (fits_word h.name) ?_
  refine fits_record_cons rfl (fits_word h.displayName) ?_
  refine fits_record_cons rfl (by rw [Shape.Fits]; exact ⟨_, rfl⟩) ?_
  refine fits_record_cons rfl (fits_word h.fileName) ?_
  refine fits_record_cons rfl (fits_word h.handlerClass) ?_
  refine fits_record_cons rfl (fits_word h.propertiesConstant) ?_
  exact fits_record_nil _

/-! ### Handlers -/

/-- What is known of a path variable. -/
def variableShape : Shape := .record [("name", word), ("var", word)]

/-- What is known of a method. -/
def methodShape : Shape :=
  .record [("name", word), ("operation", word), ("http_method", word),
    ("path_params", .items variableShape), ("additional_fields", .any), ("has_body", .any),
    ("api_path", .text .path)]

/-- What is known of the values that a handler is filled with. -/
def handlerEnv : Env :=
  [("resource", resourceShape), ("type_imports", .items word), ("runtime_imports", .items word),
   ("methods", .items methodShape)]

/-- Method names are made of word characters. -/
theorem wordy_methodIdentifier (base : String) : Wordy (Name.methodIdentifier base).toList := by
  unfold Name.methodIdentifier
  split
  · exact wordy_of_all (by decide)
  · rw [String.toList_ofList]
    exact Name.wordy_of_wordChars fun c hc =>
      (List.mem_filter.mp ((List.dropWhile_sublist _).mem hc)).2

/-- The names of methods are names. -/
theorem wordy_methodName (r : Api.Resource) (key : String) :
    Wordy ((lookup? key (methodNames r)).getD "").toList := by
  cases h : lookup? key (methodNames r) with
  | none => exact wordy_of_all (by decide)
  | some name =>
    have hmem := (List.of_mem_zip (mem_of_lookup?_tableOf h)).2
    refine Name.all_of_mem_uniqueAll (fun c hc => ?_) (fun base hbase => ?_) hmem
    · simp [Name.isWordy, Name.isWordChar, hc]
    · obtain ⟨o, -, rfl⟩ := List.mem_map.mp hbase
      exact wordy_methodIdentifier _

/-- The method of a plain operation has the shape. -/
theorem fits_method {o : Api.Operation} (h : PlainOperation o) {name : String}
    (hname : Wordy name.toList) : methodShape.Fits (HandlerMethod.ofOperation name o).toValue := by
  have hvariables : ∀ v ∈ (HandlerMethod.ofOperation name o).pathVariables,
      Wordy v.name.toList ∧ Wordy v.ident.toList := by
    intro v hv
    refine ⟨?_, Typescript.wordy_ident_of_mem_pathVariables hv⟩
    have hmem := List.mem_map_of_mem (f := (·.name)) hv
    rw [HandlerMethod.ofOperation, (Typescript.map_pathVariables _).1] at hmem
    obtain ⟨p, hp, hpname⟩ := List.mem_map.mp hmem
    rw [← hpname]
    exact (h.inPath p hp).1
  refine fits_record_cons rfl (fits_word hname) ?_
  refine fits_record_cons rfl (fits_word h.name) ?_
  refine fits_record_cons rfl (fits_word h.method) ?_
  refine fits_record_cons rfl (fits_items fun v hv => ?_) ?_
  · refine fits_record_cons rfl (fits_word (hvariables v hv).1) ?_
    exact fits_record_cons rfl (fits_word (hvariables v hv).2) (fits_record_nil _)
  refine fits_record_cons rfl fits_any ?_
  refine fits_record_cons rfl fits_any ?_
  refine fits_record_cons rfl ?_ (fits_record_nil _)
  rw [Shape.Fits]
  exact Typescript.passes_requestPath h.path fun v hv => (hvariables v hv).2

/-- **The handler of a plain resource** can be rendered, and its text passes. -/
theorem handlerText_sound (h : PlainResource r) :
    ∃ text, handlerText r = .ok text ∧ Passes .code text.toList .code := by
  refine fill_sound handlerEnv (by cbv) ?_
  refine .cons (fits_resource h) (.cons (fits_words ?_) (.cons (fits_words ?_)
    (.cons (fits_items fun m hm => ?_) .nil)))
  · unfold Handler.typeImports
    intro x hx
    split at hx
    · have hall : ∀ x ∈ ["IDataObject", "IExecuteFunctions"],
          x.toList.all Name.isWordy = true := by decide
      exact wordy_of_all (hall x hx)
    · obtain rfl := List.mem_singleton.mp hx
      exact wordy_of_all (by decide)
  · unfold Handler.runtimeImports
    intro x hx
    split at hx
    · obtain rfl := List.mem_singleton.mp hx
      exact wordy_of_all (by decide)
    · cases hx
  · obtain ⟨o, ho, rfl⟩ := List.mem_map.mp hm
    exact fits_method (h.operations o ho) (wordy_methodName r o.name)

/-! ### Properties -/

/-- What is known of an option of the selector. -/
def optionShape : Shape :=
  .record [("display_name", word), ("value", word), ("description", .text .escaped),
    ("action", word)]

/-- What is known of a path field. -/
def pathFieldShape : Shape :=
  .record [("display_name", word), ("name", word), ("type", word), ("required", word),
    ("operations", .items word), ("description", .text .escaped)]

/-- What is known of an additional field. -/
def listFieldShape : Shape :=
  .record [("display_name", .text .prose), ("name", .text .prose), ("type", word),
    ("min_value", word), ("default", .text .code), ("description", .text .escaped)]

/-- What is known of the values that properties are filled with. -/
def propertiesEnv : Env :=
  [("resource", resourceShape), ("default_operation", word),
   ("operation_options", .items optionShape), ("path_fields", .items pathFieldShape),
   ("list_operation_names", .items word), ("list_fields", .items listFieldShape),
   ("write_operation_names", .items word)]

/-- A text is of a kind. -/
theorem fits_text {k : TextKind} {s : String} (h : k.Holds s.toList) :
    (Shape.text k).Fits (.str s) := by
  rw [Shape.Fits]
  exact h

/-- The option of a plain operation has the shape. -/
theorem fits_option {o : Api.Operation} (h : PlainOperation o) (hlabel : Wordy label.toList) :
    optionShape.Fits (OperationOption.ofOperation label o).toValue := by
  refine fits_record_cons rfl (fits_word (Name.closed_isWordy.operationLabel h.name hlabel)) ?_
  refine fits_record_cons rfl (fits_word h.name) ?_
  refine fits_record_cons rfl (fits_text (Typescript.escaped_description _)) ?_
  refine fits_record_cons rfl ?_ (fits_record_nil _)
  exact fits_word (Name.closed_isWordy.operationAction h.name hlabel)

/-- The path fields of a plain resource have the shape. -/
theorem fits_pathField (h : PlainResource r) {f : PathField} (hf : f ∈ pathFields r) :
    pathFieldShape.Fits f.toValue := by
  have hcollects := collects_pathFields r
  obtain ⟨key, hkey⟩ := hcollects.used f hf
  obtain ⟨o, ho, -, hp⟩ := mem_pathUses.mp hkey
  obtain ⟨hname, hdisplayName, hkind⟩ := (h.operations o ho).inPath f.parameter hp
  have hoperations : ∀ key ∈ f.operations, Wordy key.toList := by
    intro key hkey
    obtain ⟨q, hq, -⟩ := (hcollects.operations f hf key).mp hkey
    obtain ⟨o, ho, rfl, -⟩ := mem_pathUses.mp hq
    exact (h.operations o ho).name
  refine fits_record_cons rfl (fits_word hdisplayName) ?_
  refine fits_record_cons rfl (fits_word hname) ?_
  refine fits_record_cons rfl (fits_word hkind) ?_
  refine fits_record_cons rfl (fits_word ?_) ?_
  · split <;> exact wordy_of_all (by decide)
  refine fits_record_cons rfl (fits_words hoperations) ?_
  exact fits_record_cons rfl (fits_text (Typescript.escaped_description _)) (fits_record_nil _)

/-! ### Additional fields -/

/-- The texts of an additional field that stand in code. -/
structure PlainField (f : AdditionalField) : Prop where
  displayName : Prose f.displayName.toList
  name : Prose f.name.toList
  kind : Wordy f.kind.toList
  default : Passes .code f.default.toList .code
  description : TextKind.escaped.Holds f.description.toList

/-- A name passes in code. -/
theorem passes_code_of_wordy {s : String} (h : Wordy s.toList) : Passes .code s.toList .code :=
  TextKind.passes (k := .word) rfl h

/-- The default value of a kind is code in which the brackets are right. -/
theorem passes_default (kind : String) :
    Passes .code ((defaults.lookup kind).getD "''").toList .code := by
  have hempty : Passes .code "''".toList .code :=
    Passes.quote (c := '\x27') (s := []) rfl (.nil _)
  cases h : defaults.lookup kind with
  | none => exact hempty
  | some value =>
    obtain ⟨l₁, l₂, heq, -⟩ := List.lookup_eq_some_iff.mp h
    have hmem : (kind, value) ∈ defaults := by simp [heq]
    simp only [defaults, List.mem_cons, Prod.mk.injEq, List.not_mem_nil, or_false] at hmem
    rw [Option.getD_some]
    rcases hmem with ⟨-, rfl⟩ | ⟨-, rfl⟩ | ⟨-, rfl⟩ | ⟨-, rfl⟩ | ⟨-, rfl⟩
    · exact hempty
    · exact passes_code_of_wordy (wordy_of_all (by decide))
    · exact passes_code_of_wordy (wordy_of_all (by decide))
    · show Passes .code ('[' :: [] ++ [']']) .code
      exact Passes.group rfl rfl (by simp) (.nil _)
    · show Passes .code ('{' :: [] ++ ['}']) .code
      exact Passes.group rfl rfl (by simp) (.nil _)

/-- The field of a query parameter of a plain operation. -/
theorem plainField_ofParameter {o : Api.Operation} (h : PlainOperation o) {p : Api.Parameter}
    (hp : p ∈ o.queryParameters) : PlainField (.ofParameter p) where
  displayName := (h.inQuery p hp).2.1
  name := (h.inQuery p hp).1
  kind := (h.inQuery p hp).2.2
  default := passes_default p.kind
  description := Typescript.escaped_description _

/-- The fields of paging. -/
theorem plainField_paging {f : AdditionalField} (hf : f ∈ paging) : PlainField f := by
  have hescaped {s : String} (h : Prose s.toList)
      (hs : s.toList.all fun c => !Typescript.isSpecial c) : TextKind.escaped.Holds s.toList := by
    refine ⟨s.toList, h, (Typescript.escapeChars_eq_self fun c hc => ?_).symm⟩
    simpa using List.all_eq_true.mp hs c hc
  simp only [paging, List.mem_cons, List.not_mem_nil, or_false] at hf
  rcases hf with rfl | rfl
  all_goals
    exact
      { displayName := by decide
        name := by decide
        kind := wordy_of_all (by decide)
        default := passes_code_of_wordy (wordy_of_all (by decide))
        description := hescaped (by decide) (by decide) }

/-- A field that is added is there or was there. -/
theorem mem_foldl_addField {f : AdditionalField} {fs fields : List AdditionalField}
    (h : f ∈ fs.foldl addField fields) : f ∈ fields ∨ f ∈ fs := by
  induction fs generalizing fields with
  | nil => exact .inl h
  | cons g fs ih =>
    rcases ih h with h | h
    · unfold addField at h
      split at h
      · exact .inl h
      · rcases List.mem_append.mp h with h | h
        · exact .inl h
        · exact .inr (List.mem_singleton.mp h ▸ List.mem_cons_self)
    · exact .inr (List.mem_cons_of_mem g h)

/-- The additional fields of plain operations. -/
theorem plainField_of_mem {listing : List Api.Operation}
    (h : ∀ o ∈ listing, PlainOperation o) {f : AdditionalField}
    (hf : f ∈ additionalFields listing) : PlainField f := by
  rw [additionalFields, (Text.inLabelOrder_perm _ _).mem_iff] at hf
  rcases mem_foldl_addField hf with hf | hf
  · cases hf
  · rcases List.mem_append.mp hf with hf | hf
    · obtain ⟨o, ho, hf⟩ := List.mem_flatMap.mp hf
      obtain ⟨p, hp, rfl⟩ := List.mem_map.mp hf
      exact plainField_ofParameter (h o ho) hp
    · exact plainField_paging hf

/-- An additional field has the shape. -/
theorem fits_additionalField {f : AdditionalField} (h : PlainField f) :
    listFieldShape.Fits f.toValue := by
  refine fits_record_cons rfl (fits_text h.displayName) ?_
  refine fits_record_cons rfl (fits_text h.name) ?_
  refine fits_record_cons rfl (fits_word h.kind) ?_
  refine fits_record_cons rfl ?_ ?_
  · rw [word, Shape.Fits]
    cases f.minimum with
    | none => exact wordy_of_all (s := "None") (by decide)
    | some n =>
      intro c hc
      have hc : Name.isDigit c = true := Name.isDigit_of_mem_toString (n := n) hc
      simp [Name.isWordy, Name.isWordChar, hc]
  refine fits_record_cons rfl (fits_text h.default) ?_
  exact fits_record_cons rfl (fits_text h.description) (fits_record_nil _)

/-- **The properties of a plain resource** can be rendered, and their text passes. -/
theorem propertiesText_sound (h : PlainResource r) :
    ∃ text, propertiesText r = .ok text ∧ Passes .code text.toList .code := by
  obtain ⟨first, hfirst⟩ := Option.isSome_iff_exists.mp
    (List.isSome_head?.mpr h.nonempty)
  have hnames {test : Api.Operation → Bool} :
      ∀ name ∈ (r.operations.filter test).map (·.name), Wordy name.toList := by
    intro name hname
    obtain ⟨o, ho, rfl⟩ := List.mem_map.mp hname
    exact (h.operations o (List.mem_of_mem_filter ho)).name
  rw [propertiesText, Properties.ofResource?, hfirst, Option.map_some]
  refine fill_sound propertiesEnv (by cbv) ?_
  refine .cons (fits_resource h) ?_
  refine .cons (fits_word (h.operations first (List.mem_of_head? hfirst)).name) ?_
  refine .cons (fits_items fun x hx => ?_) ?_
  · rw [operationOptions, (Text.inLabelOrder_perm _ _).mem_iff] at hx
    obtain ⟨o, ho, rfl⟩ := List.mem_map.mp hx
    exact fits_option (h.operations o ho) h.displayName
  refine .cons (fits_items fun x hx => fits_pathField h hx) ?_
  refine .cons (fits_words hnames) ?_
  refine .cons (fits_items fun x hx => fits_additionalField ?_) ?_
  · dsimp only at hx
    split at hx
    · cases hx
    · exact plainField_of_mem (fun o ho => h.operations o (List.mem_of_mem_filter ho)) hx
  exact .cons (fits_words hnames) .nil

/-! ### Registry -/

/-- What is known of the values that the registry files are filled with. -/
def registryEnv (of : String × Shape) : Env := [("resources", .items resourceShape), of]

/-- The value of plain resources has the shape. -/
theorem fits_resources (h : ∀ r ∈ resources, PlainResource r) :
    (Shape.items resourceShape).Fits (resourcesValue resources) :=
  fits_items fun r hr => fits_resource (h r hr)

/-- The registry of the properties of plain resources can be rendered, and its text passes. -/
theorem propertyRegistryText_sound (h : ∀ r ∈ resources, PlainResource r) :
    ∃ text, propertyRegistryText resources = .ok text ∧ Passes .code text.toList .code := by
  refine fill_sound (registryEnv ("default_resource", word)) (by cbv)
    (.cons (fits_resources h) (.cons (fits_word ?_) .nil))
  split
  · exact (h _ List.mem_cons_self).name
  · exact wordy_of_all (by decide)

/-- So can the index of their handlers. -/
theorem resourceIndexText_sound (h : ∀ r ∈ resources, PlainResource r) :
    ∃ text, resourceIndexText resources = .ok text ∧ Passes .code text.toList .code :=
  fill_sound [("resources", .items resourceShape)] (by cbv) (.cons (fits_resources h) .nil)

/-- So can their labels. -/
theorem resourceConfigText_sound (h : ∀ r ∈ resources, PlainResource r)
    (hlabel : Remark label.toList) :
    ∃ text, resourceConfigText label resources = .ok text ∧ Passes .code text.toList .code :=
  fill_sound (registryEnv ("node_display_name", .text .remark)) (by cbv)
    (.cons (fits_resources h) (.cons (fits_text hlabel) .nil))

/-- **The registry files of plain resources** can be rendered, and their texts pass. -/
theorem registryFiles_sound (h : ∀ r ∈ resources, PlainResource r)
    (hlabel : Remark label.toList) :
    ∃ files, registryFiles label resources = .ok files ∧
      ∀ file ∈ files, Passes .code file.2.toList .code := by
  obtain ⟨registry, hregistry, hpass⟩ := propertyRegistryText_sound h
  obtain ⟨index, hindex, hpass'⟩ := resourceIndexText_sound h
  obtain ⟨labels, hlabels, hpass''⟩ := resourceConfigText_sound h hlabel
  refine ⟨[(propertyRegistryPath, registry), (resourceIndexPath, index),
    (resourceConfigPath, labels)], ?_, ?_⟩
  · rw [registryFiles, hregistry, hindex, hlabels]
    rfl
  · simpa using ⟨hpass, hpass', hpass''⟩

/-- So can the interface that nodes share. -/
theorem sharedHandlerText_sound :
    ∃ text, sharedHandlerText = .ok text ∧ Passes .code text.toList .code :=
  fill_sound [] (by cbv) .nil

end ApiNodes.Artifact
