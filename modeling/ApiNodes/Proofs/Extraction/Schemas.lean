import ApiNodes.Proofs.Extraction.Distinct
import ApiNodes.Proofs.Extraction.Keys
import ApiNodes.Proofs.Extraction.References

namespace ApiNodes.Api

/-!
# The schemas of a resource

A resource lists the schemas that its operations refer to.  `RequestRef` and `ResponseRef` say where
an operation object has its references, without the search that reading makes.

* `readText_requestRef_iff`, `readText_responseRef_iff` — what is read of an operation object are
  these references;
* `schemas_firstUses` — the schemas of a resource are what its operations refer to, each once, in
  order of first use.
-/

variable {config : Config} {document : Value} {resources : List Resource} {r : Resource}
  {operation : List (Value × Value)} {ref v : Value} {e : Endpoint} {o : Operation} {s : String}

/-! ### Operations -/

/-- The reference of the request: that of the body, as a text. -/
def RequestRef (operation : List (Value × Value)) (s : String) : Prop :=
  ∃ body ref, Value.atKey? "requestBody" operation = some body ∧ DirectRef body ref ∧
    readText ref = .good s

/-- The reference of the response: that of the first one of success that has one, as a text. -/
def ResponseRef (operation : List (Value × Value)) (s : String) : Prop :=
  ∃ responses entries ref, Value.atKey? "responses" operation = some responses ∧
    responses.entries? = some entries ∧ FirstReference entries ref ∧ readText ref = .good s

/-- A text is not read from the null value. -/
theorem ne_null_of_readText (h : readText v = .good s) : v ≠ .null := by
  rintro rfl
  cases h

/-- An optional text is there when a text can be read. -/
theorem readOptional_spec {found : Option String} (h : readOptional readText v = .good found) :
    found = some s ↔ readText v = .good s := by
  unfold readOptional at h
  split at h
  · cases h
    exact iff_of_false (fun h => by cases h) fun h => ne_null_of_readText h rfl
  · obtain ⟨t, ht, rfl⟩ := map_eq_good_iff.mp h
    simp [ht]

/-- The reference of the request is read from its body. -/
theorem readText_requestRef_iff :
    readText (requestRef operation) = .good s ↔ RequestRef operation s := by
  unfold RequestRef requestRef
  constructor
  · intro h
    have hne := ne_null_of_readText h
    cases hbody : Value.atKey? "requestBody" operation with
    | none =>
      rw [hbody] at hne
      exact absurd rfl hne
    | some body =>
      rw [hbody] at h hne
      exact ⟨body, _, rfl, (directRef_iff hne).mpr rfl, h⟩
  · rintro ⟨body, ref, hbody, href, htext⟩
    rw [directRef_iff (ne_null_of_readText htext)] at href
    rw [hbody, Option.getD_some, href, htext]

/-- The reference of the response is read from the first one that has one. -/
theorem readText_responseRef_iff (h : responseRef operation = .ok ref) :
    readText ref = .good s ↔ ResponseRef operation s := by
  rw [responseRef] at h
  constructor
  · intro htext
    have hfirst := (firstReference_iff h).mpr ⟨ne_null_of_readText htext, rfl⟩
    cases hentries : (Value.atKey? "responses" operation).bind Value.entries? with
    | none =>
      rw [hentries] at h
      cases h
      cases htext
    | some entries =>
      rw [hentries] at hfirst
      obtain ⟨responses, hresponses, hentries⟩ := Option.bind_eq_some_iff.mp hentries
      exact ⟨responses, entries, ref, hresponses, hentries, hfirst, htext⟩
  · rintro ⟨responses, entries, ref', hresponses, hentries, hfirst, htext⟩
    rw [hresponses, Option.bind_some, hentries, Option.getD_some] at h
    obtain ⟨-, rfl⟩ := (firstReference_iff h).mp hfirst
    exact htext

/-- An operation has the references of an operation object. -/
structure Operation.RefersAs (o : Operation) (operation : List (Value × Value)) : Prop where
  request : ∀ s, o.requestRef = some s ↔ RequestRef operation s
  response : ∀ s, o.responseRef = some s ↔ ResponseRef operation s

/-- An operation has the references of the operation object that it is read from. -/
theorem refersAs_of_reads (h : e.Reads o) : o.RefersAs e.operation := by
  obtain ⟨ref, href, hread⟩ := h.responseRef
  refine ⟨fun s => ?_, fun s => ?_⟩
  · rw [readOptional_spec h.requestRef, readText_requestRef_iff]
  · rw [readOptional_spec hread, readText_responseRef_iff href]

/-! ### Resources -/

/-- The schemas that an operation refers to: that of the request before that of the response. -/
def Operation.references (o : Operation) : List String :=
  (o.requestRef.toList ++ o.responseRef.toList).filter (· != "")

/-- The schemas of operations are those that they refer to. -/
theorem firstUses_schemasOf (os : List Operation) :
    FirstUses (os.flatMap Operation.references) (schemasOf os) := by
  have hrefs : os.flatMap Operation.references =
      (os.flatMap fun o => o.requestRef.toList ++ o.responseRef.toList).filter (· != "") := by
    rw [List.filter_flatMap]
    rfl
  rw [hrefs]
  exact firstUses_distinct _

/-- **The schemas of a resource.**  Each of its operations has the references of the operation
    object that it is read from: that of the body of the request, if it is given on the spot, and
    that of the first response of success that has one.  The resource lists them without the empty
    ones, each once, in the order in which the operations first use them. -/
theorem schemas_firstUses (h : extract config document = .ok resources) (hr : r ∈ resources) :
    List.Forall₂ (fun c o => c.ReadAs o ∧ o.RefersAs c.operation)
      ((candidates document).filter (Candidate.BelongsTo config r.name ·)) r.operations ∧
    FirstUses (r.operations.flatMap Operation.references) r.schemas := by
  obtain ⟨xs, hxs, -, hfree, heq⟩ := exists_entries h hr
  constructor
  · rw [operations_eq heq]
    refine (forall₂_yields hxs hfree).imp fun c o hyields => ⟨readAs_of_yields hyields, ?_⟩
    obtain ⟨e, name, hc, hread⟩ := hyields
    have hobject : e.operation = c.operation := by
      obtain ⟨_, _, -, -, -, -, -, hat⟩ := endpoint?_eq_ok_some_iff.mp (accepted?_eq_some_iff.mp hc)
      obtain ⟨_, -, -, -, -, rfl⟩ := endpointAt?_eq_some_iff.mp hat
      rfl
    rw [← hobject]
    exact refersAs_of_reads (read_eq_ok_iff.mp hread).2
  · have hschemas : r.schemas = schemasOf r.operations := by
      rw [heq]
      rfl
    rw [hschemas]
    exact firstUses_schemasOf r.operations

/-- A body whose JSON schema is a reference. -/
def bodyOf (ref : String) : Value :=
  .object [("content", .object [("application/json", .object [("schema",
    .object [("$ref", .str ref)])])])]

/-- Orders.  The responses of the first operation are of failure, of success without a reference,
    and of success with one; the second has a body that is a reference itself, and the third an
    empty reference. -/
def ordersDocument : Value :=
  .object [("paths", .object
    [("/api/v1/orders", .object
      [("post", .object
        [("requestBody", bodyOf "#/schemas/Draft"),
         ("responses", .map
          [(.str "default", bodyOf "#/schemas/Fault"), (.int 400, bodyOf "#/schemas/Fault"),
           (.int 202, .object []), (.str "2XX", bodyOf "#/schemas/Order"),
           (.int 200, bodyOf "#/schemas/Page")])]),
       ("get", .object
        [("requestBody", .object [("$ref", .str "#/bodies/Query")]),
         ("responses", .object [("200", bodyOf "#/schemas/Draft")])]),
       ("put", .object
        [("requestBody", bodyOf ""),
         ("responses", .map [(.float (.ofNat 200), bodyOf "#/schemas/Receipt")])])])])]

/-- The schemas of `ordersDocument`. -/
theorem schemas_firstUses_ordersDocument :
    ∃ resources, extract {} ordersDocument = .ok resources ∧ ∃ r ∈ resources,
      r.schemas = ["#/schemas/Draft", "#/schemas/Order", "#/schemas/Receipt"] ∧
      List.Forall₂ (fun c o => c.ReadAs o ∧ o.RefersAs c.operation)
        ((candidates ordersDocument).filter (Candidate.BelongsTo {} r.name ·)) r.operations ∧
      FirstUses (r.operations.flatMap Operation.references) r.schemas := by
  have hschemas : ((extract {} ordersDocument).toOption.map fun resources =>
      resources.map (·.schemas)) =
        some [["#/schemas/Draft", "#/schemas/Order", "#/schemas/Receipt"]] := by
    decide +kernel
  obtain ⟨resources, h, r, hr, hrefs⟩ := exists_mem_of_toOption hschemas
  exact ⟨resources, h, r, hr, hrefs, schemas_firstUses h hr⟩

end ApiNodes.Api
