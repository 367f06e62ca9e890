import ApiNodes.Proofs.Extraction.Naming
import ApiNodes.Proofs.Extraction.Tolerance
import Mathlib.Data.List.Infix

namespace ApiNodes.Api

/-!
# Documents that grow

Paths are added at the end of a document.  The names that were given before stay, since a name
depends on the operations before it alone, and what is added comes behind what was there.

* `exists_entries_append` — the entries of the longer document are those of the shorter one and
  further ones;
* `continuedBy_resourceOf` — with further operations a resource is continued;
* `operationsIn_congr` — the names within a resource depend on those taken in it alone;
* `extract_append` — resources are continued, and new ones are made of what is added.
-/

variable {config : Config} {document document' : Value} {resources resources' : List Resource}
  {xs ys zs : List Entry} {es : List Endpoint} {added : List (Value × Value)}
  {done done' : List (String × String)} {resource : String} {operations : List Operation}

/-! ### Entries -/

/-- What is read from an endpoint under a name is one entry. -/
theorem rightUnique_readUnder :
    Relator.RightUnique fun (p : Endpoint × String) (x : Entry) => p.1.ReadUnder p.2 x := by
  rintro ⟨e, name⟩ ⟨resource, o⟩ ⟨resource', o'⟩ ⟨hresource, hread⟩ ⟨hresource', hread'⟩
  cases hresource.trans hresource'.symm
  cases hread.symm.trans hread'
  rfl

/-- Names are given to more endpoints behind those that are given already. -/
theorem namesFrom_append (done : List (String × String)) (es fs : List Endpoint) :
    namesFrom done (es ++ fs) = namesFrom done es ++
      namesFrom (done ++ (es.map (·.resource)).zip (namesFrom done es)) fs := by
  induction es generalizing done with
  | nil => simp [namesFrom]
  | cons e es ih => simp [namesFrom, ih]

/-- **The entries of a longer document** are those of the shorter one, and those that are read
    from what is added when the former have taken their names. -/
theorem exists_entries_append (hitems : pathItems document' = pathItems document ++ added)
    (h : entries config document = .ok xs) (h' : entries config document' = .ok zs) :
    ∃ ys, zs = xs ++ ys ∧
      List.Forall₂ (fun p x => p.1.ReadUnder p.2 x)
        (((candidatesUnder added).filterMap (Candidate.accepted? config)).zip
          (namesFrom (xs.map fun x => (x.resource, x.operation.name))
            ((candidatesUnder added).filterMap (Candidate.accepted? config)))) ys := by
  have hread := forall₂_named_entries h
  have hread' := forall₂_named_entries h'
  have haccepted : acceptedEndpoints config document' = acceptedEndpoints config document ++
      (candidatesUnder added).filterMap (Candidate.accepted? config) := by
    rw [acceptedEndpoints, candidates_eq_candidatesUnder, hitems, candidatesUnder,
      List.flatMap_append, List.filterMap_append]
    rfl
  have hlength : (acceptedEndpoints config document).length =
      (namesOf (acceptedEndpoints config document)).length :=
    (length_namesFrom [] _).symm
  rw [haccepted, namesOf, namesFrom_append, List.nil_append, ← namesOf,
    List.zip_append hlength, ← map_entries h] at hread'
  generalize (acceptedEndpoints config document).zip
    (namesOf (acceptedEndpoints config document)) = ps at hread hread'
  -- the first entries are read from what the shorter document is read from
  have hfirst := List.forall₂_take ps.length hread'
  rw [List.take_left] at hfirst
  have hxs : zs.take ps.length = xs := rightUnique_readUnder.forall₂ hfirst hread
  have hrest := List.forall₂_drop ps.length hread'
  rw [List.drop_left] at hrest
  refine ⟨zs.drop ps.length, ?_, hrest⟩
  rw [← hxs, List.take_append_drop]

/-- The operations of a resource among two rows of entries. -/
theorem operationsIn_append (xs ys : List Entry) (resource : String) :
    operationsIn (xs ++ ys) resource = operationsIn xs resource ++ operationsIn ys resource := by
  simp [operationsIn]

/-- A resource has operations where there are entries of it. -/
theorem operationsIn_eq_nil_iff :
    operationsIn xs resource = [] ↔ resource ∉ xs.map (·.resource) := by
  simp only [operationsIn, List.map_eq_nil_iff, List.filter_eq_nil_iff, beq_iff_eq, List.mem_map,
    not_exists, not_and]

/-! ### Resources that go on -/

/-- A resource goes on as another: its names and its description stay, and further operations and
    schemas come behind those that it has. -/
structure Resource.ContinuedBy (r r' : Resource) : Prop where
  name : r'.name = r.name
  displayName : r'.displayName = r.displayName
  description : r'.description = r.description
  fileName : r'.fileName = r.fileName
  handlerClass : r'.handlerClass = r.handlerClass
  propertiesConstant : r'.propertiesConstant = r.propertiesConstant
  operations : r.operations <+: r'.operations
  schemas : r.schemas <+: r'.schemas

/-- Further items come behind those that are kept already. -/
theorem distinct_append (xs ys : List String) : distinct xs <+: distinct (xs ++ ys) := by
  have hstep : ∀ (ys seen : List String),
      seen <+: ys.foldl (fun seen x => if x ∈ seen then seen else seen ++ [x]) seen := by
    intro ys
    induction ys with
    | nil => exact List.prefix_refl
    | cons y ys ih =>
      intro seen
      rw [List.foldl_cons]
      split
      · exact ih seen
      · exact (List.prefix_append seen [y]).trans (ih (seen ++ [y]))
  rw [distinct, distinct, List.foldl_append]
  exact hstep ys _

/-- **With further operations** a resource is continued.  Its first operation, by which it is
    described, is the same. -/
theorem continuedBy_resourceOf (hne : operations ≠ []) (name : String) (further : List Operation) :
    (resourceOf name operations).ContinuedBy (resourceOf name (operations ++ further)) := by
  have hhead : (operations ++ further).head? = operations.head? :=
    List.head?_append_of_ne_nil _ hne
  refine ⟨rfl, rfl, ?_, rfl, rfl, rfl, List.prefix_append _ _, ?_⟩
  · simp only [resourceOf, hhead]
  · simp only [resourceOf, schemasOf, List.flatMap_append, List.filter_append]
    exact distinct_append _ _

/-! ### What is added alone -/

/-- The names that are taken in a resource before and after a point. -/
theorem takenIn_append (resource : String) (done done' : List (String × String)) :
    takenIn resource (done ++ done') = takenIn resource done ++ takenIn resource done' := by
  simp [takenIn]

/-- The names within a resource depend on the names taken in it alone. -/
theorem filter_zip_namesFrom (h : takenIn resource done = takenIn resource done') :
    (es.zip (namesFrom done es)).filter (·.1.resource == resource) =
      (es.zip (namesFrom done' es)).filter (·.1.resource == resource) := by
  induction es generalizing done done' with
  | nil => rfl
  | cons e es ih =>
    have hnext (p : String × String) :
        takenIn resource (done ++ [p]) = takenIn resource (done' ++ [p]) := by
      rw [takenIn_append, takenIn_append, h]
    simp only [namesFrom, List.zip_cons_cons, List.filter_cons]
    by_cases he : e.resource = resource
    · subst he
      rw [h, ih (hnext _)]
    · -- a name that is given in another resource takes none in this one
      have hother (done : List (String × String)) (name : String) :
          takenIn resource (done ++ [(e.resource, name)]) = takenIn resource done := by
        simp [takenIn, he]
      rw [if_neg (by simpa using he), if_neg (by simpa using he)]
      refine ih ?_
      rw [hother, hother, h]

/-- Two rows of entries that are read from the same endpoints have the same operations of a
    resource, if the same names were taken in it. -/
theorem operationsIn_congr
    (hys : List.Forall₂ (fun p x => p.1.ReadUnder p.2 x) (es.zip (namesFrom done es)) ys)
    (hzs : List.Forall₂ (fun p x => p.1.ReadUnder p.2 x) (es.zip (namesFrom done' es)) zs)
    (h : takenIn resource done = takenIn resource done') :
    operationsIn ys resource = operationsIn zs resource := by
  have hfilter {done : List (String × String)} {ys : List Entry}
      (hys : List.Forall₂ (fun p x => p.1.ReadUnder p.2 x) (es.zip (namesFrom done es)) ys) :
      List.Forall₂ (fun p x => p.1.ReadUnder p.2 x)
        ((es.zip (namesFrom done es)).filter (·.1.resource == resource))
        (ys.filter (·.resource == resource)) :=
    List.rel_filter (fun p x hx => by simp [hx.1]) hys
  have hys' := hfilter hys
  rw [filter_zip_namesFrom h] at hys'
  have heq := rightUnique_readUnder.forall₂ hys' (hfilter hzs)
  rw [operationsIn, operationsIn, heq]

/-- The document of path items and nothing else. -/
def documentOf (items : List (Value × Value)) : Value := .object [("paths", .map items)]

/-- The path items of their document. -/
theorem pathItems_documentOf (items : List (Value × Value)) :
    pathItems (documentOf items) = items := rfl

/-- What is read of a document is read of a part of it. -/
theorem exists_entries_of_part (h : entries config document' = .ok zs)
    (hsub : candidates document ⊆ candidates document') :
    ∃ xs, entries config document = .ok xs := by
  have hsurvey := survey_returns_iff.mp (entries_returns_iff.mp ⟨zs, h⟩).1
  exact exists_entries_of_subset h (fun c hc => hsurvey c (hsub hc)) (List.filterMap_subset _ hsub)

/-- **Adding to a document.**  When paths are added at the end of a document, every resource that
    it has goes on: its names and its description stay, its operations keep their keys and all
    their fields, and further operations and schemas come behind them.  A resource that it does
    not have yet is one that is extracted from what is added alone. -/
theorem extract_append (hitems : pathItems document' = pathItems document ++ added)
    (h : extract config document = .ok resources)
    (h' : extract config document' = .ok resources') :
    (∀ r ∈ resources, ∃ r' ∈ resources', r.ContinuedBy r') ∧
      ∃ fresh, extract config (documentOf added) = .ok fresh ∧
        ∀ r' ∈ resources', r'.name ∉ resources.map (·.name) → r' ∈ fresh := by
  obtain ⟨xs, hxs, rfl⟩ := extract_eq_ok_iff.mp h
  obtain ⟨all, hall, rfl⟩ := extract_eq_ok_iff.mp h'
  have hadded : candidates (documentOf added) ⊆ candidates document' := by
    rw [candidates_eq_candidatesUnder, candidates_eq_candidatesUnder, pathItems_documentOf, hitems,
      candidatesUnder, candidatesUnder, List.flatMap_append]
    exact List.subset_append_right _ _
  obtain ⟨zs, hzs⟩ := exists_entries_of_part hall hadded
  have hfresh : extract config (documentOf added) = .ok (grouped zs) :=
    extract_eq_ok_iff.mpr ⟨zs, hzs, rfl⟩
  obtain ⟨ys, rfl, hys⟩ := exists_entries_append hitems hxs hall
  refine ⟨fun r hr => ?_, grouped zs, hfresh, fun r' hr' hnew => ?_⟩
  · obtain ⟨name, hname, hfree, rfl⟩ := mem_grouped_iff.mp hr
    refine ⟨resourceOf name (operationsIn (xs ++ ys) name), mem_grouped_iff.mpr
      ⟨name, by simp [hname], hfree, rfl⟩, ?_⟩
    rw [operationsIn_append]
    exact continuedBy_resourceOf (fun hnil => operationsIn_eq_nil_iff.mp hnil hname) name _
  · obtain ⟨name, hname, hfree, rfl⟩ := mem_grouped_iff.mp hr'
    -- no entry of the shorter document is of the resource, so that no name is taken in it
    have hnone : operationsIn xs name = [] := by
      refine operationsIn_eq_nil_iff.mpr fun hmem => hnew ?_
      exact List.mem_map.mpr ⟨_, mem_grouped_iff.mpr ⟨name, hmem, hfree, rfl⟩, rfl⟩
    have htaken : takenIn name (xs.map fun x => (x.resource, x.operation.name)) =
        takenIn name [] := by
      rw [takenIn_entries, hnone]
      rfl
    have hoperations : operationsIn (xs ++ ys) name = operationsIn zs name := by
      rw [operationsIn_append, hnone, List.nil_append]
      exact operationsIn_congr hys (forall₂_named_entries hzs) htaken
    refine mem_grouped_iff.mpr ⟨name, ?_, hfree, by rw [hoperations]⟩
    by_contra hmem
    rw [← operationsIn_eq_nil_iff, ← hoperations, operationsIn_eq_nil_iff] at hmem
    exact hmem hname

/-- Users that are listed under a tag, and that are made from a schema. -/
def userItems : List (Value × Value) :=
  [(.str "/api/v1/users", .object
    [("get", .object [("tags", .list [.str "People"])]),
     ("post", .object [("requestBody", .object [("content", .object [("application/json",
       .object [("schema", .object [("$ref", .str "#/User")])])])])])])]

/-- A resource before the users, and users once more, under another segment and another tag. -/
def furtherItems : List (Value × Value) :=
  [(.str "/api/v1/assets", .object [("get", .object [])]),
   (.str "/api/v1/user", .object [("get", .object [("tags", .list [.str "Others"])])])]

theorem extract_append_furtherItems :
    ∃ resources resources' fresh, extract {} (documentOf userItems) = .ok resources ∧
      extract {} (documentOf (userItems ++ furtherItems)) = .ok resources' ∧
      extract {} (documentOf furtherItems) = .ok fresh ∧
      resources.map (·.name) = ["user"] ∧
      (∀ r ∈ resources, ∃ r' ∈ resources', r.ContinuedBy r') ∧
      ∃ r' ∈ resources', r'.name = "asset" ∧ r' ∈ fresh := by
  have hfew : ((extract {} (documentOf userItems)).toOption.map fun resources =>
      resources.map (·.name)) = some ["user"] := by
    decide +kernel
  have hmany : ((entries {} (documentOf (userItems ++ furtherItems))).toOption.map fun xs =>
      xs.map fun x => (x.resource, x.operation.name)) =
        some [("user", "list"), ("user", "post"), ("asset", "list"), ("user", "list2")] := by
    decide +kernel
  obtain ⟨resources, h, hnames⟩ := exists_of_toOption hfew
  obtain ⟨xs, hxs, hpairs⟩ := exists_of_toOption hmany
  have h' : extract {} (documentOf (userItems ++ furtherItems)) = .ok (grouped xs) :=
    extract_eq_ok_iff.mpr ⟨xs, hxs, rfl⟩
  have hasset : "asset" ∈ xs.map (·.resource) := by
    have h := congrArg (List.map Prod.fst) hpairs
    rw [List.map_map] at h
    exact h ▸ (show "asset" ∈ ["user", "user", "asset", "user"] by decide)
  obtain ⟨hcontinued, fresh, hfresh, hnew⟩ := extract_append rfl h h'
  have hmem : resourceOf "asset" (operationsIn xs "asset") ∈ grouped xs :=
    mem_grouped_iff.mpr ⟨"asset", hasset, by decide +kernel, rfl⟩
  refine ⟨resources, grouped xs, fresh, h, h', hfresh, hnames, hcontinued, _, hmem, rfl, ?_⟩
  refine hnew _ hmem ?_
  rw [hnames]
  exact show "asset" ∉ ["user"] by decide

end ApiNodes.Api
