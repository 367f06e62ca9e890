import ApiNodes.Proofs.Artifact.HandlerLayout
import ApiNodes.Proofs.Artifact.PathFields
import ApiNodes.Proofs.Artifact.PropertiesLayout
import ApiNodes.Proofs.Extraction.Keys
import ApiNodes.Proofs.Ordered
import ApiNodes.Proofs.Typescript.Locals

namespace ApiNodes.Artifact

open Api (Operation Resource)

/-!
# Agreement of handlers and properties

The handler and the properties of a resource are made apart from one another.  `Agree` says
what they have to share, and `agree_of_nodup` that they do, as long as the keys of the
operations are different, which those of extracted resources are (`Api.nodup_keys`).
-/

variable {r : Resource} {o : Operation} {resources : List Resource} {document : Value}
  {config : Api.Config}

/-! ### Methods -/

/-- A method carries an operation out: it is dispatched on the key, and sends the request. -/
structure HandlerMethod.Serves (m : HandlerMethod) (o : Operation) : Prop where
  operation : m.operation = o.name
  httpMethod : m.httpMethod = o.method
  requestPath : m.requestPath = Typescript.requestPath o.path m.pathVariables
  pathVariables : m.pathVariables.map (·.name) = o.pathParameters.map (·.name)

/-- The method of an operation carries it out. -/
theorem serves_ofOperation (name : String) (o : Operation) :
    (HandlerMethod.ofOperation name o).Serves o where
  operation := rfl
  httpMethod := rfl
  requestPath := rfl
  pathVariables := (Typescript.map_pathVariables _).1

/-- There is a name for every operation. -/
theorem length_namesOfMethods (r : Resource) :
    (r.operations.map (·.name)).length = (namesOfMethods r).length := by
  simp [namesOfMethods, Name.length_uniqueAll]

/-- Where the keys are different, the table of method names has every name that was made, under the
    key it was made for. -/
theorem methodNames_eq_zip (h : (r.operations.map (·.name)).Nodup) :
    methodNames r = (r.operations.map (·.name)).zip (namesOfMethods r) := by
  apply tableOf_eq_self
  rwa [List.map_fst_zip (length_namesOfMethods r).le]

/-- Where the keys are different, every method has the name that was made for it. -/
theorem methods_ofResource (h : (r.operations.map (·.name)).Nodup) :
    (Handler.ofResource r).methods.map (·.name) = namesOfMethods r := by
  have hlength := length_namesOfMethods r
  have hkeys : ((r.operations.map (·.name)).zip (namesOfMethods r)).map Prod.fst =
      r.operations.map (·.name) := List.map_fst_zip hlength.le
  refine List.ext_getElem (by simpa [Handler.ofResource] using hlength) fun i hi hi' => ?_
  have hkey : i < (r.operations.map (·.name)).length := hlength ▸ hi'
  have hmem : ((r.operations.map (·.name))[i], (namesOfMethods r)[i]) ∈
      (r.operations.map (·.name)).zip (namesOfMethods r) :=
    List.mem_iff_getElem.mpr ⟨i, by rw [List.length_zip]; omega, by simp⟩
  have hfound := lookup?_of_mem (by rwa [hkeys]) hmem
  rw [← methodNames_eq_zip h] at hfound
  simp only [Handler.ofResource, HandlerMethod.ofOperation, List.getElem_map] at hfound ⊢
  rw [hfound, Option.getD_some]

/-! ### Agreement -/

/-- A handler and properties of a resource agree. -/
structure Agree (r : Resource) (h : Handler) (p : Properties) : Prop where
  handlerResource : h.resource = r
  propertiesResource : p.resource = r
  /-- The methods carry out the operations, in order. -/
  methods : List.Forall₂ (fun o m => HandlerMethod.Serves m o) r.operations h.methods
  /-- Every key is dispatched on once. -/
  keys : (h.methods.map (·.operation)).Nodup
  /-- A call by name reaches one method. -/
  names : (h.methods.map (·.name)).Nodup
  /-- The options are the keys. -/
  options : (p.options.map (·.key)).Perm (h.methods.map (·.operation))
  default : p.defaultOperation ∈ p.options.map (·.key)
  /-- A method reads a path parameter where there is a field for it, and nowhere else. -/
  pathFields : ∀ m ∈ h.methods, ∀ name, name ∈ m.pathVariables.map (·.name) ↔
    ∃ f ∈ p.pathFields, f.parameter.name = name ∧ m.operation ∈ f.operations
  /-- There is one field for every name of a path parameter. -/
  pathNames : (p.pathFields.map (·.parameter.name)).Nodup ∧ ∀ name,
    name ∈ p.pathFields.map (·.parameter.name) ↔
      ∃ o ∈ r.operations, name ∈ o.pathParameters.map (·.name)
  /-- A method sends a body where the field for it is shown. -/
  body : ∀ m ∈ h.methods, m.hasBody = true ↔ m.operation ∈ p.writeOperations
  /-- Where the additional fields are shown, the method reads them. -/
  additionalFields : ∀ key ∈ p.listOperations,
    ∃ m ∈ h.methods, m.operation = key ∧ m.hasAdditionalFields = true

/-- The method of an operation is among the methods. -/
theorem exists_method (ho : o ∈ r.operations) :
    ∃ name, HandlerMethod.ofOperation name o ∈ (Handler.ofResource r).methods :=
  ⟨_, List.mem_map_of_mem ho⟩

/-- Every method is that of an operation. -/
theorem exists_operation {m : HandlerMethod} (hm : m ∈ (Handler.ofResource r).methods) :
    ∃ o ∈ r.operations, ∃ name, m = .ofOperation name o := by
  obtain ⟨o, ho, rfl⟩ := List.mem_map.mp hm
  exact ⟨o, ho, _, rfl⟩

/-- What holds of an operation and its method under any name holds of the operations and the methods
    of a handler, in order. -/
theorem forall₂_methods {R : Operation → HandlerMethod → Prop}
    (h : ∀ o ∈ r.operations, ∀ name,
      HandlerMethod.ofOperation name o ∈ (Handler.ofResource r).methods →
      R o (.ofOperation name o)) : List.Forall₂ R r.operations (Handler.ofResource r).methods := by
  rw [show (Handler.ofResource r).methods = r.operations.map _ from rfl,
    List.forall₂_map_right_iff, List.forall₂_same]
  intro o ho
  exact h o ho _ (List.mem_map_of_mem ho)

/-- The keys that are dispatched on are those of the operations. -/
theorem map_operation_methods (r : Resource) :
    (Handler.ofResource r).methods.map (·.operation) = r.operations.map (·.name) := by
  simp [Handler.ofResource, HandlerMethod.ofOperation]

/-- An operation is told by its key. -/
theorem eq_of_key (h : (r.operations.map (·.name)).Nodup) {o' : Operation}
    (ho : o ∈ r.operations) (ho' : o' ∈ r.operations) (hname : o.name = o'.name) : o = o' :=
  List.inj_on_of_nodup_map h ho ho' hname

/-- An operation is among those of a kind by its key. -/
theorem mem_keys_filter_iff (h : (r.operations.map (·.name)).Nodup) (ho : o ∈ r.operations)
    (test : Operation → Bool) :
    o.name ∈ (r.operations.filter test).map (·.name) ↔ test o = true := by
  constructor
  · intro hmem
    obtain ⟨o', ho', hname⟩ := List.mem_map.mp hmem
    rw [List.mem_filter] at ho'
    rw [← eq_of_key h ho'.1 ho hname]
    exact ho'.2
  · intro htest
    exact List.mem_map_of_mem (List.mem_filter.mpr ⟨ho, htest⟩)

/-- The path parameters of an operation are the fields that its key uses. -/
theorem mem_pathParameters_iff (h : (r.operations.map (·.name)).Nodup) (ho : o ∈ r.operations)
    {name : String} :
    name ∈ o.pathParameters.map (·.name) ↔
      ∃ f ∈ pathFields r, f.parameter.name = name ∧ o.name ∈ f.operations := by
  have hcollects := collects_pathFields r
  constructor
  · intro hname
    obtain ⟨q, hq, rfl⟩ := List.mem_map.mp hname
    have huse : (o.name, q) ∈ pathUses r.operations := mem_pathUses.mpr ⟨o, ho, rfl, hq⟩
    obtain ⟨f, hf, hfq⟩ := hcollects.complete _ _ huse
    exact ⟨f, hf, hfq, (hcollects.operations f hf _).mpr ⟨q, huse, hfq.symm⟩⟩
  · rintro ⟨f, hf, rfl, hmem⟩
    obtain ⟨q, huse, hq⟩ := (hcollects.operations f hf _).mp hmem
    -- the use is of a key, and no other operation has the key
    obtain ⟨o', ho', hname, hqo⟩ := mem_pathUses.mp huse
    rw [eq_of_key h ho' ho hname] at hqo
    exact hq ▸ List.mem_map_of_mem hqo

/-- There are fields for the names of path parameters, and for no other names. -/
theorem mem_pathFields_iff {name : String} :
    name ∈ (pathFields r).map (·.parameter.name) ↔
      ∃ o ∈ r.operations, name ∈ o.pathParameters.map (·.name) := by
  have hcollects := collects_pathFields r
  constructor
  · intro hname
    obtain ⟨f, hf, rfl⟩ := List.mem_map.mp hname
    obtain ⟨key, huse⟩ := hcollects.used f hf
    obtain ⟨o, ho, -, hmem⟩ := mem_pathUses.mp huse
    exact ⟨o, ho, List.mem_map_of_mem hmem⟩
  · rintro ⟨o, ho, hname⟩
    obtain ⟨q, hq, rfl⟩ := List.mem_map.mp hname
    obtain ⟨f, hf, hfq⟩ := hcollects.complete _ _ (mem_pathUses.mpr ⟨o, ho, rfl, hq⟩)
    exact hfq ▸ List.mem_map_of_mem hf

/-- **Handlers and properties agree** where the keys are different. -/
theorem agree_of_nodup (hkeys : (r.operations.map (·.name)).Nodup) {p : Properties}
    (hp : Properties.ofResource? r = some p) : Agree r (Handler.ofResource r) p := by
  obtain ⟨first, hfirst, rfl⟩ := Option.map_eq_some_iff.mp hp
  have hoptions : ((operationOptions r).map (·.key)).Perm (r.operations.map (·.name)) := by
    have hmap := (Text.inLabelOrder_perm (·.displayName)
      (r.operations.map (OperationOption.ofOperation r.displayName))).map (·.key)
    simpa [operationOptions, Function.comp_def, OperationOption.ofOperation] using hmap
  refine
    { handlerResource := rfl, propertiesResource := rfl, methods := ?_, keys := ?_, names := ?_,
      options := ?_, default := ?_, pathFields := ?_,
      pathNames := ⟨(collects_pathFields r).nodup, fun _ => mem_pathFields_iff⟩, body := ?_,
      additionalFields := ?_ }
  · rw [Handler.ofResource, List.forall₂_map_right_iff, List.forall₂_same]
    exact fun o _ => serves_ofOperation _ o
  · rwa [map_operation_methods]
  · rw [methods_ofResource hkeys]
    exact Name.nodup_uniqueAll _ _
  · rwa [map_operation_methods]
  · exact hoptions.mem_iff.mpr (List.mem_map_of_mem (List.mem_of_head? hfirst))
  · intro m hm name
    obtain ⟨o, ho, _, rfl⟩ := exists_operation hm
    rw [(serves_ofOperation _ o).pathVariables]
    exact mem_pathParameters_iff hkeys ho
  · intro m hm
    obtain ⟨o, ho, _, rfl⟩ := exists_operation hm
    exact (mem_keys_filter_iff hkeys ho (·.isWrite)).symm
  · intro key hkey
    obtain ⟨o, ho, rfl⟩ := List.mem_map.mp hkey
    rw [List.mem_filter] at ho
    obtain ⟨name, hm⟩ := exists_method ho.1
    exact ⟨_, hm, rfl, by simp [HandlerMethod.ofOperation, ho.2]⟩

/-- An extracted resource has properties, and they are rendered. -/
theorem exists_properties (h : Api.extract config document = .ok resources) (hr : r ∈ resources) :
    ∃ p, Properties.ofResource? r = some p ∧ propertiesText r = .ok p.layout := by
  obtain ⟨first, hfirst⟩ := Option.isSome_iff_exists.mp
    (List.isSome_head?.mpr (Api.operations_ne_nil h hr))
  obtain ⟨p, hp⟩ : ∃ p, Properties.ofResource? r = some p := by
    rw [Properties.ofResource?, hfirst]
    exact ⟨_, rfl⟩
  refine ⟨p, hp, ?_⟩
  rw [propertiesText, hp]
  exact p.text_eq

/-- **The files of an extracted resource agree.**  Both are rendered, as the layouts of a
    handler and of properties that agree. -/
theorem files_agree (h : Api.extract config document = .ok resources) (hr : r ∈ resources) :
    ∃ handler properties, handlerText r = .ok handler.layout ∧
      propertiesText r = .ok properties.layout ∧ Agree r handler properties := by
  obtain ⟨p, hp, htext⟩ := exists_properties h hr
  exact ⟨Handler.ofResource r, p, (Handler.ofResource r).text_eq, htext,
    agree_of_nodup (Api.nodup_keys h hr) hp⟩

/-- Orders that are listed, placed, and looked up by their number. -/
def ordersDocument : Value :=
  .object [("paths", .object
    [("/api/v1/orders", .object
      [("get", .object [("parameters", .list [.object
        [("in", .str "query"), ("name", .str "state")]])]), ("post", .object [])]),
     ("/api/v1/orders/\x7bnumber\x7d", .object [("get", .object []), ("put", .object [])])])]

theorem files_agree_ordersDocument :
    ∃ resources, Api.extract {} ordersDocument = .ok resources ∧ ∃ r ∈ resources,
      r.name = "order" ∧ r.operations.length = 4 ∧
      ∃ handler properties, handlerText r = .ok handler.layout ∧
        propertiesText r = .ok properties.layout ∧ Agree r handler properties := by
  have hnames : ((Api.extract {} ordersDocument).toOption.map fun resources =>
      resources.map fun r => (r.name, r.operations.length)) = some [("order", 4)] := by
    decide +kernel
  obtain ⟨resources, h, r, hr, heq⟩ := Api.exists_mem_of_toOption hnames
  obtain ⟨hname, hlength⟩ := Prod.mk.inj heq
  exact ⟨resources, h, r, hr, hname, hlength, files_agree h hr⟩

end ApiNodes.Artifact
