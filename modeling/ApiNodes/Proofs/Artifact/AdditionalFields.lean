import ApiNodes.Proofs.Artifact.Agreement
import ApiNodes.Proofs.Artifact.Declarations

namespace ApiNodes.Artifact

open Api (Operation Resource)

/-!
# What the additional fields reach

A method that has query parameters sends the additional fields, and so does one that lists.  The
collection in which they are set is made from the list operations alone.

* `mem_names_foldl_addField`, `exists_additionalField` — the collection has a field for every query
  parameter of the operations it is made from;
* `Properties.Reaches` — the query parameters of an operation can be set;
* `reaches_iff_isList` — they can for list operations, and for no others, as the collection is
  shown for no others;
* `not_reaches_memberDocument` — so that there are query parameters that are sent and cannot be set.
-/

variable {r : Resource} {o : Operation} {resources : List Resource} {document : Value}
  {config : Api.Config} {p : Properties} {f : AdditionalField} {name : String}
  {fs fields : List AdditionalField} {listing : List Operation}

/-! ### Fields -/

/-- A field that is added has its name among the fields, be it there already or not. -/
theorem mem_names_addField :
    name ∈ (addField fields f).map (·.name) ↔ name ∈ fields.map (·.name) ∨ name = f.name := by
  unfold addField
  split
  · rename_i hmem
    exact ⟨.inl, fun h => h.elim id fun heq => heq ▸ hmem⟩
  · rw [List.map_append, List.mem_append, List.map_singleton, List.mem_singleton]

/-- The names of the fields that are added one after the other. -/
theorem mem_names_foldl_addField :
    name ∈ (fs.foldl addField fields).map (·.name) ↔
      name ∈ fields.map (·.name) ∨ name ∈ fs.map (·.name) := by
  induction fs generalizing fields with
  | nil => simp
  | cons g fs ih =>
    rw [List.foldl_cons, ih, mem_names_addField, List.map_cons, List.mem_cons, or_assoc]

/-- There is a field for every query parameter of the operations. -/
theorem exists_additionalField (ho : o ∈ listing) {q : Api.Parameter} (hq : q ∈ o.queryParameters) :
    ∃ f ∈ additionalFields listing, f.name = q.name := by
  have hdeclared : AdditionalField.ofParameter q ∈
      listing.flatMap fun o => o.queryParameters.map .ofParameter :=
    List.mem_flatMap.mpr ⟨o, ho, List.mem_map_of_mem hq⟩
  have hname : q.name ∈ (additionalFields listing).map (·.name) := by
    rw [additionalFields, ((Text.inLabelOrder_perm _ _).map _).mem_iff, mem_names_foldl_addField]
    exact .inr (List.mem_map.mpr ⟨_, List.mem_append_left _ hdeclared, rfl⟩)
  exact List.mem_map.mp hname

/-! ### Files -/

/-- The query parameters of an operation can be set: the file declares the collection of the
    additional fields, the collection is shown for the key of the operation, and it has a field for
    every query parameter. -/
structure Properties.Reaches (p : Properties) (o : Operation) : Prop where
  declared : Contains p.layout (additionalFieldsFieldText p)
  shown : o.name ∈ p.listOperations
  offered : ∀ q ∈ o.queryParameters, ∃ f ∈ p.additionalFields, f.name = q.name

/-- The collection stands in the file if there are operations for it. -/
theorem contains_additionalFields (h : p.listOperations ≠ []) :
    Contains p.layout (additionalFieldsFieldText p) := by
  have hpart : Contains (if p.listOperations.isEmpty then "" else additionalFieldsFieldText p)
      (additionalFieldsFieldText p) := by
    rw [if_neg (by simpa using h)]
    exact .refl _
  have hblock := ((hpart.right
    (operationSelectorText p ++
      String.join (p.pathFields.map (PathField.text p.resource.name)))).left
      (if p.writeOperations.isEmpty then "" else bodyFieldText p)).codeBlock .square 0
  unfold Properties.layout
  exact (((hblock.right _).left _).codeLine 0).right _

/-- The collection is for list operations, and for no others. -/
theorem mem_listOperations_iff (hkeys : (r.operations.map (·.name)).Nodup)
    (hp : Properties.ofResource? r = some p) (ho : o ∈ r.operations) :
    o.name ∈ p.listOperations ↔ o.isList = true := by
  obtain ⟨first, -, rfl⟩ := Option.map_eq_some_iff.mp hp
  exact mem_keys_filter_iff hkeys ho (·.isList)

/-- The properties of a resource with different keys reach its list operations, and no others. -/
theorem reaches_iff_of_nodup (hkeys : (r.operations.map (·.name)).Nodup)
    (hp : Properties.ofResource? r = some p) (ho : o ∈ r.operations) :
    p.Reaches o ↔ o.isList = true := by
  have hshown := mem_listOperations_iff hkeys hp ho
  refine ⟨fun h => hshown.mp h.shown, fun hlist => ?_⟩
  have hmem : o ∈ r.operations.filter (·.isList) := List.mem_filter.mpr ⟨ho, hlist⟩
  refine ⟨contains_additionalFields (List.ne_nil_of_mem (hshown.mpr hlist)), hshown.mpr hlist,
    fun q hq => ?_⟩
  obtain ⟨first, -, rfl⟩ := Option.map_eq_some_iff.mp hp
  -- the collection is not empty, as one of its operations is at hand
  rw [if_neg (by simpa using List.ne_nil_of_mem hmem)]
  exact exists_additionalField hmem hq

/-- **The query parameters of list operations can be set**, and those of no others, although the
    methods of all operations with query parameters send the additional fields.  The collection is
    shown for the keys of list operations alone. -/
theorem reaches_iff_isList (h : Api.extract config document = .ok resources) (hr : r ∈ resources) :
    ∃ (handler : Handler) (properties : Properties), handlerText r = .ok handler.layout ∧
      Properties.ofResource? r = some properties ∧ propertiesText r = .ok properties.layout ∧
      List.Forall₂ (fun o m => HandlerMethod.Serves m o ∧
          (m.hasAdditionalFields = true ↔ o.isList = true ∨ o.queryParameters ≠ []) ∧
          (o.name ∈ properties.listOperations ↔ o.isList = true) ∧
          (properties.Reaches o ↔ o.isList = true))
        r.operations handler.methods := by
  obtain ⟨p, hp, htext⟩ := exists_properties h hr
  have hkeys := Api.nodup_keys h hr
  refine ⟨Handler.ofResource r, p, (Handler.ofResource r).text_eq, hp, htext, ?_⟩
  rw [Handler.ofResource, List.forall₂_map_right_iff, List.forall₂_same]
  refine fun o ho => ⟨serves_ofOperation _ o, ?_, mem_listOperations_iff hkeys hp ho,
    reaches_iff_of_nodup hkeys hp ho⟩
  simp [HandlerMethod.ofOperation, or_comm]

theorem reaches_iff_isList_ordersDocument :
    ∃ resources, Api.extract {} ordersDocument = .ok resources ∧ ∃ r ∈ resources,
      r.operations.map (fun o => (o.isList, o.queryParameters.map (·.name))) =
        [(true, ["state"]), (false, []), (false, []), (false, [])] ∧
      ∃ (handler : Handler) (properties : Properties), handlerText r = .ok handler.layout ∧
        Properties.ofResource? r = some properties ∧ propertiesText r = .ok properties.layout ∧
        List.Forall₂ (fun o m => HandlerMethod.Serves m o ∧
            (m.hasAdditionalFields = true ↔ o.isList = true ∨ o.queryParameters ≠ []) ∧
            (o.name ∈ properties.listOperations ↔ o.isList = true) ∧
            (properties.Reaches o ↔ o.isList = true))
          r.operations handler.methods := by
  have hoperations : ((Api.extract {} ordersDocument).toOption.map fun resources =>
      resources.map fun r => r.operations.map fun o =>
        (o.isList, o.queryParameters.map (·.name))) =
      some [[(true, ["state"]), (false, []), (false, []), (false, [])]] := by
    decide +kernel
  obtain ⟨resources, h, r, hr, heq⟩ := Api.exists_mem_of_toOption hoperations
  exact ⟨resources, h, r, hr, heq, reaches_iff_isList h hr⟩

/-- An order that is looked up by its number, and is expanded if that is asked for. -/
def memberDocument : Value :=
  .object [("paths", .object [("/api/v1/orders/\x7bnumber\x7d", .object
    [("get", .object [("parameters", .list [.object
      [("in", .str "query"), ("name", .str "expand")]])])])])]

/-- **A query parameter that is sent and cannot be set**, in a file that has no additional fields
    at all. -/
theorem not_reaches_memberDocument :
    ∃ resources, Api.extract {} memberDocument = .ok resources ∧ ∃ r ∈ resources,
      ∃ (handler : Handler) (properties : Properties), handlerText r = .ok handler.layout ∧
        propertiesText r = .ok properties.layout ∧ properties.listOperations = [] ∧
        ∃ o ∈ r.operations, o.queryParameters.map (·.name) = ["expand"] ∧
          ∃ m ∈ handler.methods, m.Serves o ∧ m.hasAdditionalFields = true ∧
            ¬ properties.Reaches o := by
  have hoperations : ((Api.extract {} memberDocument).toOption.map fun resources =>
      resources.map fun r => r.operations.map fun o =>
        (o.isList, o.queryParameters.map (·.name))) = some [[(false, ["expand"])]] := by
    decide +kernel
  obtain ⟨resources, h, r, hr, heq⟩ := Api.exists_mem_of_toOption hoperations
  obtain ⟨o, ho, hmember⟩ : ∃ o, r.operations = [o] ∧
      (o.isList, o.queryParameters.map (·.name)) = (false, ["expand"]) :=
    List.map_eq_singleton_iff.mp heq
  obtain ⟨hlist, hexpand⟩ := Prod.mk.inj hmember
  have hmem : o ∈ r.operations := ho ▸ List.mem_singleton_self o
  have hquery : o.queryParameters ≠ [] := by
    intro hnil
    rw [hnil] at hexpand
    cases hexpand
  obtain ⟨p, hp, htext⟩ := exists_properties h hr
  obtain ⟨name, hm⟩ := exists_method hmem
  refine ⟨resources, h, r, hr, Handler.ofResource r, p, (Handler.ofResource r).text_eq, htext, ?_,
    o, hmem, hexpand, _, hm, serves_ofOperation _ o, ?_, ?_⟩
  · obtain ⟨first, -, rfl⟩ := Option.map_eq_some_iff.mp hp
    simp [ho, hlist]
  · simp [HandlerMethod.ofOperation, hquery]
  · rw [reaches_iff_of_nodup (Api.nodup_keys h hr) hp hmem, hlist]
    exact Bool.false_ne_true

end ApiNodes.Artifact
