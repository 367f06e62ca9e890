import ApiNodes.Proofs.Extraction.Tolerance
import ApiNodes.Proofs.Text.Casing

namespace ApiNodes.Api

/-!
# From filters to resources

The filters of a run become a configuration, and the configuration is asked entry by entry.
`Filters.Selects` says in terms of the filters alone which entries are taken.

* `config_allowsMethod_iff`, `config_allowsTags_iff`, `config_excludesResource_iff`,
  `config_excludesOperation_iff` — what the configuration of filters lets through;
* `belongs_iff_unfiltered` — a configuration takes entries away, and adds none;
* `exists_entries_of_unfiltered` — it does not make an extraction fail;
* `extract_config` — the operations under the filters are those of the selected entries.
-/

variable {config : Config} {document : Value} {resources : List Resource} {f : Filters}
  {c : Candidate} {e : Endpoint} {o : Operation} {resource path method name name' : String}
  {operation : List (Value × Value)}

/-! ### What filters select -/

/-- The methods of a run are restricted to `GET`: that is asked for, or it is the default of a
    product. -/
def Filters.Restricts (f : Filters) : Prop :=
  f.getOnly = true ∨ (f.product.isSome ∧ f.noDefaults = false)

/-- The filters of a run select an entry of a resource. -/
structure Filters.Selects (f : Filters) (resource : String) (c : Candidate) : Prop where
  method : f.Restricts → ∀ m, c.method = .str m → Text.upper m = "GET"
  /-- Tags that are given stand in for the tag of the product. -/
  givenTags : f.includeTags ≠ [] → ∃ t ∈ f.includeTags, t ∈ tagsOf c.operation
  productTag : f.includeTags = [] → ∀ p, f.product = some p → p.tag ∈ tagsOf c.operation
  /-- Resources that are given are left out beside those of the product. -/
  givenResources : ∀ r ∈ f.excludeResources, Text.lower resource ≠ Text.lower r
  productResources : ∀ p, f.product = some p →
    ∀ r ∈ p.excludedResources, Text.lower resource ≠ Text.lower r
  productOperations : ∀ p ids i, f.product = some p →
    lookup? resource p.excludedOperations = some ids →
    Value.atKey? "operationId" c.operation = some (.str i) → i ≠ "" → i ∉ ids

/-- A list is there when it is not empty. -/
theorem nonempty?_eq_some_iff {α : Type} {xs ys : List α} :
    nonempty? xs = some ys ↔ xs = ys ∧ xs ≠ [] := by
  cases xs <;> simp [nonempty?]

/-- The methods that the configuration of filters takes. -/
theorem config_allowsMethod_iff :
    f.config.allowsMethod method = true ↔ (f.Restricts → method = "GET") := by
  have hmethods : f.config.allowedMethods =
      if f.getOnly || (f.product.isSome && !f.noDefaults) then some ["GET"] else none := rfl
  have hrestricts : (f.getOnly || (f.product.isSome && !f.noDefaults)) = true ↔ f.Restricts := by
    simp [Filters.Restricts]
  rw [allowsMethod_iff, hmethods]
  by_cases h : f.Restricts
  · rw [if_pos (hrestricts.mpr h)]
    simp [h]
  · rw [if_neg (mt hrestricts.mp h)]
    simp [h]

/-- The tags that the configuration of filters takes. -/
theorem config_allowsTags_iff :
    f.config.allowsTags operation = true ↔
      (f.includeTags ≠ [] → ∃ t ∈ f.includeTags, t ∈ tagsOf operation) ∧
        (f.includeTags = [] → ∀ p, f.product = some p → p.tag ∈ tagsOf operation) := by
  rw [allowsTags_iff, Filters.config]
  simp only [nonempty?_eq_some_iff]
  cases htags : f.includeTags with
  | nil => cases f.product <;> simp
  | cons t ts => cases f.product <;> simp

/-- The resources that the configuration of filters leaves out. -/
theorem config_excludesResource_iff :
    f.config.excludesResource resource = false ↔
      (∀ r ∈ f.excludeResources, Text.lower resource ≠ Text.lower r) ∧
        ∀ p, f.product = some p → ∀ r ∈ p.excludedResources, Text.lower resource ≠ Text.lower r := by
  have hlist (rs : List String) :
      (∀ rs', nonempty? (rs.map Text.lower) = some rs' →
        Text.lower resource ∉ rs'.map Text.lower) ↔
        ∀ r ∈ rs, Text.lower resource ≠ Text.lower r := by
    -- the listed names are put in lower case twice
    simp only [nonempty?_eq_some_iff]
    constructor
    · intro h r hr heq
      refine h _ ⟨rfl, by simpa using List.ne_nil_of_mem hr⟩ ?_
      rw [List.map_map, heq]
      exact List.mem_map.mpr ⟨r, hr, Text.lower_lower r⟩
    · rintro h _ ⟨rfl, -⟩ hmem
      rw [List.map_map] at hmem
      obtain ⟨r, hr, heq⟩ := List.mem_map.mp hmem
      exact h r hr (heq.symm.trans (Text.lower_lower r))
  rw [excludesResource_eq_false_iff, Filters.config]
  refine (hlist _).trans ?_
  cases f.product with
  | none => simp
  | some p =>
    simp only [List.mem_append, List.mem_filter, decide_eq_true_eq, Option.some.injEq,
      forall_eq']
    constructor
    · intro h
      refine ⟨fun r hr => ?_, fun r hr => h r (.inl hr)⟩
      by_cases hp : r ∈ p.excludedResources
      · exact h r (.inl hp)
      · exact h r (.inr ⟨hr, hp⟩)
    · rintro ⟨hgiven, hproduct⟩ r (hr | hr)
      · exact hproduct r hr
      · exact hgiven r hr.1

/-- The operations that the configuration of filters leaves out. -/
theorem config_excludesOperation_iff :
    f.config.excludesOperation resource operation = false ↔
      ∀ p ids i, f.product = some p → lookup? resource p.excludedOperations = some ids →
        Value.atKey? "operationId" operation = some (.str i) → i ≠ "" → i ∉ ids := by
  have hconfig : f.config.excludedOperations =
      f.product.bind fun p => nonempty? p.excludedOperations := rfl
  rw [excludesOperation_eq_false_iff, hconfig]
  simp only [Option.bind_eq_some_iff, nonempty?_eq_some_iff]
  constructor
  · intro h p ids i hp hids
    refine h _ ids i ⟨p, hp, rfl, ?_⟩ hids
    intro hnil
    rw [hnil] at hids
    cases hids
  · rintro h _ ids i ⟨p, hp, rfl, -⟩ hids
    exact h p ids i hp hids

/-- Filters select what their configuration lets through. -/
theorem selects_iff : f.Selects resource c ↔
    (∀ m, c.method = .str m → f.config.allowsMethod (Text.upper m) = true) ∧
      f.config.allowsTags c.operation = true ∧ f.config.excludesResource resource = false ∧
        f.config.excludesOperation resource c.operation = false := by
  simp only [config_allowsMethod_iff]
  rw [config_allowsTags_iff, config_excludesResource_iff, config_excludesOperation_iff]
  constructor
  · intro h
    exact ⟨fun m hm hf => h.method hf m hm, ⟨h.givenTags, h.productTag⟩,
      ⟨h.givenResources, h.productResources⟩, h.productOperations⟩
  · rintro ⟨hmethod, ⟨hgiven, hproduct⟩, ⟨hgiven', hproduct'⟩, hoperations⟩
    exact ⟨fun hf m hm => hmethod m hm hf, hgiven, hproduct, hgiven', hproduct', hoperations⟩

instance : DecidablePred (f.Selects resource) := fun c =>
  decidable_of_iff
    ((c.method.str?.all fun m => f.config.allowsMethod (Text.upper m)) = true ∧
      f.config.allowsTags c.operation = true ∧ f.config.excludesResource resource = false ∧
        f.config.excludesOperation resource c.operation = false)
    (by
      rw [selects_iff]
      refine and_congr_left fun _ => ?_
      cases c.method <;> simp [Value.str?])

/-! ### Configurations take entries away -/

/-- An entry belongs to a resource when it does without a configuration, and the configuration lets
    it through. -/
theorem belongs_iff_unfiltered : Belongs config resource path method operation ↔
    Belongs {} resource path method operation ∧
      config.allowsMethod (Text.upper method) = true ∧ config.allowsTags operation = true ∧
        config.excludesResource resource = false ∧
          config.excludesOperation resource operation = false := by
  rw [allowsMethod_iff, allowsTags_iff, excludesResource_eq_false_iff,
    excludesOperation_eq_false_iff]
  constructor
  · intro h
    refine ⟨⟨h.known, ?_, ?_, h.named, h.unreserved, ?_, ?_⟩, h.allowed, h.tagged, h.included, h.kept⟩
    all_goals simp
  · rintro ⟨h, hallowed, htagged, hincluded, hkept⟩
    exact ⟨h.known, hallowed, htagged, h.named, h.unreserved, hincluded, hkept⟩

/-- **An entry is taken under filters when they select it**, among those taken without any. -/
theorem belongsTo_config_iff :
    c.BelongsTo f.config resource ↔ c.BelongsTo {} resource ∧ f.Selects resource c := by
  simp only [Candidate.BelongsTo, selects_iff]
  constructor
  · rintro ⟨path, method, hpath, hmethod, h⟩
    obtain ⟨hfree, hallowed, hrest⟩ := belongs_iff_unfiltered.mp h
    refine ⟨⟨path, method, hpath, hmethod, hfree⟩, ?_, hrest⟩
    rintro m hm
    cases hmethod.symm.trans hm
    exact hallowed
  · rintro ⟨⟨path, method, hpath, hmethod, h⟩, hallowed, hrest⟩
    exact ⟨path, method, hpath, hmethod,
      belongs_iff_unfiltered.mpr ⟨h, hallowed method hmethod, hrest⟩⟩

/-- A candidate that is accepted has the same endpoint without a configuration. -/
theorem accepted?_unfiltered (h : c.accepted? config = some e) : c.accepted? {} = some e := by
  rw [accepted?_eq_some_iff, endpoint?_eq_ok_some_iff] at h ⊢
  obtain ⟨path, method, hpath, hmethod, hknown, -, -, hat⟩ := h
  obtain ⟨first, hfirst, hfree, -, -, rfl⟩ := endpointAt?_eq_some_iff.mp hat
  refine ⟨path, method, hpath, hmethod, hknown, rfl, rfl,
    endpointAt?_eq_some_iff.mpr ⟨first, hfirst, hfree, rfl, ?_, rfl⟩⟩
  exact excludesOperation_eq_false_iff.mpr (by simp)

/-- A candidate that passes a configuration passes without one. -/
theorem passes_unfiltered (h : c.Passes config) : c.Passes {} := by
  obtain ⟨method, hmethod, hknown, -, -⟩ := passes_iff.mp h
  exact passes_iff.mpr ⟨method, hmethod, hknown, rfl, rfl⟩

/-- What is read without a configuration is read under any. -/
theorem exists_entries_of_unfiltered {xs : List Entry} (h : entries {} document = .ok xs)
    (config : Config) : ∃ ys, entries config document = .ok ys := by
  have hsurvey := survey_returns_iff.mp (entries_returns_iff.mp ⟨xs, h⟩).1
  refine exists_entries_of_subset h (fun c hc => ?_) fun e he => ?_
  · obtain ⟨hmethod, hpath⟩ := endpoint?_returns_iff.mp (hsurvey c hc)
    exact endpoint?_returns_iff.mpr ⟨hmethod, fun hpasses => hpath (passes_unfiltered hpasses)⟩
  · obtain ⟨c, hc, he⟩ := List.mem_filterMap.mp he
    exact List.mem_filterMap.mpr ⟨c, hc, accepted?_unfiltered he⟩

/-- What is extracted without a configuration is extracted under any. -/
theorem exists_extract_of_unfiltered (h : extract {} document = .ok resources)
    (config : Config) : ∃ kept, extract config document = .ok kept := by
  obtain ⟨xs, hxs, rfl⟩ := extract_eq_ok_iff.mp h
  obtain ⟨ys, hys⟩ := exists_entries_of_unfiltered hxs config
  exact ⟨grouped ys, extract_eq_ok_iff.mpr ⟨ys, hys, rfl⟩⟩

/-! ### Operations under a name -/

/-- The operations of the resources of a name. -/
def operationsUnder (resources : List Resource) (name : String) : List Operation :=
  (resources.filter (·.name == name)).flatMap (·.operations)

/-- The operations under a name are those of its entries, unless the name is reserved. -/
theorem operationsUnder_grouped (xs : List Entry) (name : String) :
    operationsUnder (grouped xs) name =
      if isReserved name then [] else operationsIn xs name := by
  have hnodup : (((distinct (xs.map (·.resource))).filter (!isReserved ·)).mergeSort
      fun a b => decide (a ≤ b)).Nodup :=
    (List.mergeSort_perm _ _).nodup_iff.mpr ((distinct_spec _).1.filter _)
  have hnames {n : String} : n ∈ ((distinct (xs.map (·.resource))).filter (!isReserved ·)).mergeSort
      (fun a b => decide (a ≤ b)) ↔ n ∈ xs.map (·.resource) ∧ isReserved n = false := by
    rw [List.mem_mergeSort, List.mem_filter, (distinct_spec _).2, Bool.not_eq_true']
  -- no two resources have the name
  have hfilter : (grouped xs).filter (·.name == name) =
      if name ∈ xs.map (·.resource) ∧ isReserved name = false
        then [resourceOf name (operationsIn xs name)] else [] := by
    rw [grouped, List.filter_map]
    show ((List.filter (· == name) _).map _) = _
    rw [List.filter_beq]
    split
    · rename_i h
      rw [List.count_eq_one_of_mem hnodup (hnames.mpr h)]
      rfl
    · rename_i h
      rw [List.count_eq_zero.mpr (mt hnames.mp h)]
      rfl
  rw [operationsUnder, hfilter]
  cases hreserved : isReserved name with
  | true => simp
  | false =>
    by_cases hname : name ∈ xs.map (·.resource)
    · rw [if_pos ⟨hname, rfl⟩]
      simp [resourceOf]
    · rw [if_neg fun h => hname h.1]
      have hnone : xs.filter (·.resource == name) = [] := by
        rw [List.filter_eq_nil_iff]
        intro x hx heq
        exact hname (List.mem_map.mpr ⟨x, hx, by simpa using heq⟩)
      simp [operationsIn, hnone]

/-- The operations under a name are read from the endpoints of the candidates that belong to it. -/
theorem forall₂_operationsUnder (h : extract config document = .ok resources) (name : String) :
    List.Forall₂ (Candidate.Yields config)
      ((candidates document).filter (Candidate.BelongsTo config name ·))
      (operationsUnder resources name) := by
  obtain ⟨xs, hxs, rfl⟩ := extract_eq_ok_iff.mp h
  rw [operationsUnder_grouped]
  cases hfree : isReserved name with
  | false => exact forall₂_yields hxs hfree
  | true =>
    -- nothing belongs to a resource with a reserved name
    have hnone : (candidates document).filter (Candidate.BelongsTo config name ·) = [] := by
      rw [List.filter_eq_nil_iff]
      intro c _ hc
      obtain ⟨e, -, -, hfree'⟩ := belongsTo_iff.mp (of_decide_eq_true hc)
      rw [hfree] at hfree'
      cases hfree'
    rw [hnone]
    exact .nil

/-- The name of an operation stands nowhere else in it. -/
theorem read_rename (h : e.read name = .ok o) (name' : String) :
    e.read name' = .ok { o with name := name' } := by
  obtain ⟨-, h⟩ := read_eq_ok_iff.mp h
  exact read_eq_ok_iff.mpr ⟨rfl, { h with }⟩

/-! ### The operations under filters -/

/-- Two operations that are read from one candidate differ in their names at most. -/
theorem eq_of_yields {o' : Operation} (h : c.Yields {} o) (h' : c.Yields config o') :
    o' = { o with name := o'.name } := by
  obtain ⟨e, name, hc, hread⟩ := h
  obtain ⟨e', name', hc', hread'⟩ := h'
  cases hc.symm.trans (accepted?_unfiltered hc')
  cases hread'.symm.trans (read_rename hread name')
  rfl

/-- Of items that are related to others, those that are kept are related to what is kept. -/
theorem forall₂_zip_filter {α β γ : Type} {R : α → β → Prop} {S : α → γ → Prop} {T : β → γ → Prop}
    {p : α → Bool} {xs : List α} {ys : List β} {zs : List γ} (h : List.Forall₂ R xs ys)
    (h' : List.Forall₂ S (xs.filter p) zs) (hT : ∀ x y z, R x y → S x z → T y z) :
    List.Forall₂ (fun q z => T q.2 z) ((xs.zip ys).filter (p ·.1)) zs := by
  induction h generalizing zs with
  | nil => simpa using h'
  | @cons x y xs ys hxy _ ih =>
    rw [List.zip_cons_cons]
    cases hp : p x with
    | true =>
      rw [List.filter_cons_of_pos hp] at h'
      rw [List.filter_cons_of_pos (by exact hp)]
      cases h' with
      | cons hxz h' => exact .cons (hT _ _ _ hxy hxz) (ih h')
    | false =>
      rw [List.filter_cons_of_neg (by simp [hp])] at h'
      rw [List.filter_cons_of_neg (by simp [hp])]
      exact ih h'

/-- **The operations under filters.**  A document that is extracted without a configuration is
    extracted under filters.  Of each resource, the operations that remain are those of the entries
    that the filters select, in the same order; only their names may have other numbers. -/
theorem extract_config {all : List Resource} (f : Filters) (h : extract {} document = .ok all) :
    ∃ kept, extract f.config document = .ok kept ∧ ∀ resource,
      List.Forall₂ Candidate.ReadAs
        ((candidates document).filter (Candidate.BelongsTo {} resource ·))
        (operationsUnder all resource) ∧
      List.Forall₂ (fun (p : Candidate × Operation) o => o = { p.2 with name := o.name })
        ((((candidates document).filter (Candidate.BelongsTo {} resource ·)).zip
          (operationsUnder all resource)).filter fun p => f.Selects resource p.1)
        (operationsUnder kept resource) := by
  obtain ⟨kept, hkept⟩ := exists_extract_of_unfiltered h f.config
  refine ⟨kept, hkept, fun resource => ?_⟩
  have hall := forall₂_operationsUnder h resource
  refine ⟨hall.imp fun _ _ => readAs_of_yields, ?_⟩
  have hfilter : (candidates document).filter (Candidate.BelongsTo f.config resource ·) =
      ((candidates document).filter (Candidate.BelongsTo {} resource ·)).filter
        (f.Selects resource ·) := by
    rw [List.filter_filter]
    refine List.filter_congr fun c _ => ?_
    rw [← Bool.decide_and]
    exact decide_eq_decide.mpr (belongsTo_config_iff.trans and_comm)
  have hselected := hfilter ▸ forall₂_operationsUnder hkept resource
  exact forall₂_zip_filter hall hselected fun _ _ _ => eq_of_yields

/-- Users that are read and written under a tag, a user that is read under a listed id, and two
    resources to leave out. -/
def taggedDocument : Value :=
  let under (tag id : String) : Value :=
    .object [("tags", .list [.str tag]), ("operationId", .str id)]
  .object [("paths", .object
    [("/api/v1/users", .object [("get", under "People" "a"), ("post", under "People" "b")]),
     ("/api/v1/users/{id}", .object [("get", under "People" "c")]),
     ("/api/v1/user/all", .object [("get", under "Other" "d")]),
     ("/api/v1/abl", .object [("get", under "People" "e")]),
     ("/api/v1/orders", .object [("get", under "People" "f")])])]

/-- A product that takes people, and leaves a resource and an operation out. -/
def peopleFilters : Filters :=
  { product := some
      { tag := "People", outputDir := "nodes/People", displayName := "People"
        componentName := "People", excludedResources := ["ABL"]
        excludedOperations := [("user", ["c"])] }
    excludeResources := ["Order"] }

theorem extract_config_taggedDocument :
    ∃ all kept, extract {} taggedDocument = .ok all ∧
      extract peopleFilters.config taggedDocument = .ok kept ∧
      (operationsUnder all "user").length = 4 ∧ (operationsUnder all "order").length = 1 ∧
      (operationsUnder kept "user").length = 1 ∧ operationsUnder kept "order" = [] ∧
      operationsUnder kept "abl" = [] := by
  have hok : (extract {} taggedDocument).toBool = true := by decide +kernel
  cases h : extract {} taggedDocument with
  | error e => simp [h, Except.toBool] at hok
  | ok all =>
    obtain ⟨kept, hkept, hread⟩ := extract_config peopleFilters h
    have hselected (resource : String) : (operationsUnder kept resource).length =
        (((candidates taggedDocument).filter (Candidate.BelongsTo {} resource ·)).filter
          (peopleFilters.Selects resource ·)).length := by
      obtain ⟨hall, hkept⟩ := hread resource
      rw [← hkept.length_eq, ← List.length_map Prod.fst]
      conv_rhs => rw [← List.map_fst_zip hall.length_eq.le, List.filter_map]
      rfl
    refine ⟨all, kept, rfl, hkept, ?_, ?_, ?_, ?_, ?_⟩
    · rw [← (hread "user").1.length_eq]
      decide +kernel
    · rw [← (hread "order").1.length_eq]
      decide +kernel
    · rw [hselected]
      decide +kernel
    · rw [← List.length_eq_zero_iff, hselected]
      decide +kernel
    · rw [← List.length_eq_zero_iff, hselected]
      decide +kernel

end ApiNodes.Api
