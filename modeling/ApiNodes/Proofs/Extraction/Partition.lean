import ApiNodes.Api.Extract
import ApiNodes.Proofs.Extraction.Reading
import ApiNodes.Proofs.Extraction.Segment
import ApiNodes.Proofs.Ordered
import Mathlib.Data.List.Forall2

namespace ApiNodes.Api

/-!
# The resources of a document partition its accepted entries

`Belongs` says, without the walk that `extract` makes, which entries of a document belong to
a resource.  The walk is taken apart in three steps:

* `endpoints_of_survey` — a survey that fails nowhere finds the endpoints of the candidates
  that are accepted, in order;
* `forall₂_readAll` — every endpoint is read as one entry;
* `mem_grouped_iff`, `pairwise_name_grouped` — the entries are grouped by their resources, and
  the resources are sorted by name.

`extract_partition` puts them together: each resource has the operations that are read from
its entries, one for each and in document order, and there is a resource for every entry.
-/

variable {config : Config} {document : Value}

/-! ### Path items -/

/-- The paths of a document with what stands under them, in document order. -/
def pathItems (document : Value) : List (Value × Value) :=
  ((document.get? "paths").bind Value.entries?).getD []

/-- The operation objects of path items, in order. -/
def candidatesUnder (items : List (Value × Value)) : List Candidate :=
  items.flatMap fun (path, item) =>
    (item.entries?.getD []).filterMap fun (method, operation) =>
      operation.entries?.map fun fields => ⟨path, method, fields⟩

/-- The operation objects of a document are those of its path items. -/
theorem candidates_eq_candidatesUnder (document : Value) :
    candidates document = candidatesUnder (pathItems document) := rfl

/-! ### Entries that belong to a resource -/

/-- An operation object under a method of a path belongs to a resource: the configuration
    does not reject it, and the first segment of the path names the resource. -/
structure Belongs (config : Config) (resource path method : String)
    (operation : List (Value × Value)) : Prop where
  known : Text.upper method ∈ methods
  allowed : ∀ ms, config.allowedMethods = some ms → ms ≠ [] → Text.upper method ∈ ms
  tagged : ∀ ts, config.includedTags = some ts → ts ≠ [] → ∃ t ∈ ts, t ∈ tagsOf operation
  named : ∃ first, FirstSegment path first ∧ Text.lower first ∉ reserved ∧
    Name.resource first = resource
  unreserved : Text.lower resource ∉ reserved
  included : ∀ rs, config.excludedResources = some rs → Text.lower resource ∉ rs.map Text.lower
  kept : ∀ table ids i, config.excludedOperations = some table →
    lookup? resource table = some ids →
    Value.atKey? "operationId" operation = some (.str i) → i ≠ "" → i ∉ ids

/-- A candidate belongs to a resource: its keys are texts under which it does. -/
def Candidate.BelongsTo (config : Config) (resource : String) (c : Candidate) : Prop :=
  ∃ path method, c.path = .str path ∧ c.method = .str method ∧
    Belongs config resource path method c.operation

/-- An operation is read from a candidate: it has the path and the method, in capital
    letters, and all that it says is read from the operation object. -/
def Candidate.ReadAs (c : Candidate) (o : Operation) : Prop :=
  ∃ path method, c.path = .str path ∧ c.method = .str method ∧
    o.path = path ∧ o.method = Text.upper method ∧
    ∃ resource key name,
      (Endpoint.mk resource key (Text.upper method) path c.operation).read name = .ok o

/-! ### Filters -/

/-- A method passes when there is no list of methods, or an empty one, or it is in the list. -/
theorem allowsMethod_iff {method : String} :
    config.allowsMethod method = true ↔
      ∀ ms, config.allowedMethods = some ms → ms ≠ [] → method ∈ ms := by
  unfold Config.allowsMethod
  split <;> simp_all

/-- An operation passes when there is no list of tags, or an empty one, or it carries one of
    the list. -/
theorem allowsTags_iff {operation : List (Value × Value)} :
    config.allowsTags operation = true ↔
      ∀ ts, config.includedTags = some ts → ts ≠ [] → ∃ t ∈ ts, t ∈ tagsOf operation := by
  unfold Config.allowsTags
  split <;> simp_all

/-- A resource is left out when its name is listed, whatever the case of its letters. -/
theorem excludesResource_eq_false_iff {resource : String} :
    config.excludesResource resource = false ↔
      ∀ rs, config.excludedResources = some rs → Text.lower resource ∉ rs.map Text.lower := by
  unfold Config.excludesResource
  cases config.excludedResources <;> simp

/-- An operation is left out when its id is not empty and listed under the resource. -/
theorem excludesOperation_eq_false_iff {resource : String} {operation : List (Value × Value)} :
    config.excludesOperation resource operation = false ↔
      ∀ table ids i, config.excludedOperations = some table →
        lookup? resource table = some ids →
        Value.atKey? "operationId" operation = some (.str i) → i ≠ "" → i ∉ ids := by
  unfold Config.excludesOperation
  constructor
  · intro h table ids i htable hids hi hne
    simpa [hi, hne, htable, hids] using h
  · intro h
    split
    · rename_i i hi
      cases htable : config.excludedOperations with
      | none => simp [lookup?]
      | some table =>
        cases hids : lookup? resource table with
        | none => simp [hids]
        | some ids =>
          by_cases hne : i = ""
          · simp [hne]
          · simpa [hids, hne] using h table ids i htable hids hi hne
    · rfl

/-! ### Accepted candidates -/

/-- What an endpoint takes from its path: the name of the resource and the key. -/
theorem endpointAt?_eq_some_iff {method path : String} {operation : List (Value × Value)}
    {e : Endpoint} :
    endpointAt? config method path operation = some e ↔
      ∃ first, (segments path).head? = some first ∧ isReserved first = false ∧
        config.excludesResource (Name.resource first) = false ∧
        config.excludesOperation (Name.resource first) operation = false ∧
        e = ⟨Name.resource first, sanitizeKey (inferKey (segments path) method), method, path,
          operation⟩ := by
  unfold endpointAt?
  cases segments path with
  | nil => simp
  | cons first rest =>
    simp only [List.head?_cons, Option.some.injEq, exists_eq_left']
    split
    · rename_i h
      simp only [Bool.or_eq_true] at h
      simp only [reduceCtorEq, false_iff, not_and]
      intro h1 h2 h3
      simp_all
    · rename_i h
      simp only [Bool.or_eq_true, not_or, Bool.not_eq_true] at h
      simp [h, eq_comm]

/-- A candidate has an endpoint when its keys are texts, and its method and its tags pass. -/
theorem endpoint?_eq_ok_some_iff {c : Candidate} {e : Endpoint} :
    c.endpoint? config = .ok (some e) ↔
      ∃ path method, c.path = .str path ∧ c.method = .str method ∧
        Text.upper method ∈ methods ∧ config.allowsMethod (Text.upper method) = true ∧
        config.allowsTags c.operation = true ∧
        endpointAt? config (Text.upper method) path c.operation = some e := by
  obtain ⟨path, method, operation⟩ := c
  unfold Candidate.endpoint? Candidate.method? Candidate.pathText
  cases method with
  | str m =>
    by_cases hm : Text.upper m ∈ methods
    · by_cases hf : config.allowsMethod (Text.upper m) = true ∧ config.allowsTags operation = true
      · cases path <;> simp [hm, hf, bind, Except.bind, pure, Except.pure]
      · have hf' : ¬∃ path', path = .str path' ∧ config.allowsMethod (Text.upper m) = true ∧
            config.allowsTags operation = true ∧
            endpointAt? config (Text.upper m) path' operation = some e := by
          rintro ⟨_, _, h, h', _⟩
          exact hf ⟨h, h'⟩
        simpa [hm, hf, bind, Except.bind, pure, Except.pure] using hf'
    · simp [hm, bind, Except.bind, pure, Except.pure]
  | _ => simp [bind, Except.bind, pure, Except.pure]

/-- The endpoint of a candidate that is accepted. -/
def Candidate.accepted? (config : Config) (c : Candidate) : Option Endpoint :=
  (c.endpoint? config).toOption.join

/-- A candidate is accepted when it has an endpoint. -/
theorem accepted?_eq_some_iff {c : Candidate} {e : Endpoint} :
    c.accepted? config = some e ↔ c.endpoint? config = .ok (some e) := by
  unfold Candidate.accepted?
  cases c.endpoint? config <;> simp [Except.toOption]

/-- A candidate belongs to the resource of its endpoint, unless the name is reserved. -/
theorem belongsTo_iff {c : Candidate} {resource : String} :
    c.BelongsTo config resource ↔
      ∃ e, c.accepted? config = some e ∧ e.resource = resource ∧ isReserved resource = false := by
  have hreserved (name : String) : isReserved name = false ↔ Text.lower name ∉ reserved := by
    simp [isReserved]
  constructor
  · rintro ⟨path, method, hpath, hmethod, h⟩
    obtain ⟨first, hfirst, hfree, hname⟩ := h.named
    refine ⟨_, accepted?_eq_some_iff.mpr (endpoint?_eq_ok_some_iff.mpr
      ⟨path, method, hpath, hmethod, h.known, allowsMethod_iff.mpr h.allowed,
        allowsTags_iff.mpr h.tagged, endpointAt?_eq_some_iff.mpr
          ⟨first, firstSegment_iff.mp hfirst, (hreserved first).mpr hfree, ?_, ?_, rfl⟩⟩), hname,
      (hreserved resource).mpr h.unreserved⟩
    · rw [hname]
      exact excludesResource_eq_false_iff.mpr h.included
    · rw [hname]
      exact excludesOperation_eq_false_iff.mpr h.kept
  · rintro ⟨e, he, rfl, hfree⟩
    obtain ⟨path, method, hpath, hmethod, hknown, hallowed, htagged, hat⟩ :=
      endpoint?_eq_ok_some_iff.mp (accepted?_eq_some_iff.mp he)
    obtain ⟨first, hfirst, hfirstFree, hincluded, hkept, rfl⟩ := endpointAt?_eq_some_iff.mp hat
    exact ⟨path, method, hpath, hmethod,
      { known := hknown
        allowed := allowsMethod_iff.mp hallowed
        tagged := allowsTags_iff.mp htagged
        named := ⟨first, firstSegment_iff.mpr hfirst, (hreserved first).mp hfirstFree, rfl⟩
        unreserved := (hreserved _).mp hfree
        included := excludesResource_eq_false_iff.mp hincluded
        kept := excludesOperation_eq_false_iff.mp hkept }⟩

instance (resource : String) : DecidablePred (Candidate.BelongsTo config resource) := fun c =>
  decidable_of_iff
    (((c.accepted? config).any fun e => e.resource == resource && !isReserved resource) = true)
    (by simp [belongsTo_iff, Option.any_eq_true])

/-! ### The walk -/

/-- A survey that fails nowhere finds the endpoints of the accepted candidates, in order. -/
theorem endpoints_of_survey {cs : List Candidate} {es : List Endpoint}
    (h : survey config cs = (es, none)) : es = cs.filterMap (Candidate.accepted? config) := by
  induction cs generalizing es with
  | nil => simp_all [survey]
  | cons c cs ih =>
    rw [survey] at h
    cases hc : c.endpoint? config with
    | error e => simp [hc] at h
    | ok found =>
      cases hs : survey config cs with
      | mk es' failure =>
        simp only [hc, hs, Prod.mk.injEq] at h
        obtain ⟨rfl, rfl⟩ := h
        have hc' : c.accepted? config = found := by simp [Candidate.accepted?, hc, Except.toOption]
        rw [List.filterMap_cons, hc', ← ih hs]
        cases found <;> rfl

/-- There are as many names as endpoints. -/
theorem length_namesFrom (done : List (String × String)) (es : List Endpoint) :
    (namesFrom done es).length = es.length := by
  induction es generalizing done with
  | nil => rfl
  | cons e es ih => simp [namesFrom, ih]

/-- An entry is read from an endpoint, under a name for its operation. -/
def Endpoint.ReadUnder (e : Endpoint) (name : String) (x : Entry) : Prop :=
  x.resource = e.resource ∧ e.read name = .ok x.operation

/-- An entry is read from an endpoint: it is under the resource of the endpoint, and its
    operation is the endpoint's. -/
def Endpoint.ReadAs (e : Endpoint) (x : Entry) : Prop := ∃ name, e.ReadUnder name x

/-- Every endpoint is read as one entry, under its name and in order. -/
theorem forall₂_readAll {ps : List (Endpoint × String)} {xs : List Entry}
    (h : readAll ps = .ok xs) : List.Forall₂ (fun p x => p.1.ReadUnder p.2 x) ps xs := by
  induction ps generalizing xs with
  | nil =>
    simp only [readAll, Except.ok.injEq] at h
    subst h
    exact .nil
  | cons p ps ih =>
    obtain ⟨e, name⟩ := p
    rw [readAll] at h
    cases ho : e.read name with
    | error failure => simp [ho, bind, Except.bind] at h
    | ok o =>
      cases hr : readAll ps with
      | error failure => simp [ho, hr, bind, Except.bind] at h
      | ok rest =>
        simp only [ho, hr, bind, Except.bind, pure, Except.pure, Except.ok.injEq] at h
        subst h
        exact .cons ⟨rfl, ho⟩ (ih hr)

/-- The endpoints of the accepted candidates of a document, in document order. -/
def acceptedEndpoints (config : Config) (document : Value) : List Endpoint :=
  (candidates document).filterMap (Candidate.accepted? config)

/-- The entries of a document are read from the endpoints of its accepted candidates, under
    their unique names. -/
theorem forall₂_named_entries {xs : List Entry} (h : entries config document = .ok xs) :
    List.Forall₂ (fun p x => p.1.ReadUnder p.2 x)
      ((acceptedEndpoints config document).zip (namesOf (acceptedEndpoints config document)))
      xs := by
  unfold entries at h
  cases hs : survey config (candidates document) with
  | mk es failure =>
    cases hr : readAll (es.zip (namesOf es)) with
    | error e => simp [hs, hr, bind, Except.bind] at h
    | ok ys =>
      cases failure with
      | some e => simp [hs, hr, bind, Except.bind, throw, throwThe, MonadExceptOf.throw] at h
      | none =>
        simp only [hs, hr, bind, Except.bind, pure, Except.pure, Except.ok.injEq] at h
        subst h
        rw [acceptedEndpoints, ← endpoints_of_survey hs]
        exact forall₂_readAll hr

/-- The entries of a document are read from the endpoints of its accepted candidates. -/
theorem forall₂_entries {xs : List Entry} (h : entries config document = .ok xs) :
    List.Forall₂ Endpoint.ReadAs (acceptedEndpoints config document) xs := by
  have hzip : ((acceptedEndpoints config document).zip
      (namesOf (acceptedEndpoints config document))).map Prod.fst =
        acceptedEndpoints config document := by
    rw [List.map_fst_zip]
    exact (length_namesFrom [] _).ge
  rw [← hzip, List.forall₂_map_left_iff]
  exact (forall₂_named_entries h).imp fun p x hx => ⟨p.2, hx⟩

/-- The candidates of a resource and its endpoints are the same, in the same order. -/
theorem forall₂_accepted {resource : String} (hfree : isReserved resource = false)
    (cs : List Candidate) :
    List.Forall₂ (fun c e => c.accepted? config = some e)
      (cs.filter (Candidate.BelongsTo config resource ·))
      ((cs.filterMap (Candidate.accepted? config)).filter (·.resource == resource)) := by
  induction cs with
  | nil => exact .nil
  | cons c cs ih =>
    cases hc : c.accepted? config with
    | none =>
      have hnot : ¬c.BelongsTo config resource := by simp [belongsTo_iff, hc]
      simpa [hc, hnot] using ih
    | some e =>
      by_cases hr : e.resource = resource
      · have hmem : c.BelongsTo config resource := belongsTo_iff.mpr ⟨e, hc, hr, hfree⟩
        simpa [hc, hmem, hr] using ih
      · have hnot : ¬c.BelongsTo config resource := by simp [belongsTo_iff, hc, hr]
        simpa [hc, hnot, hr] using ih

/-! ### Grouping -/

/-- Each item is kept once. -/
theorem distinct_spec (xs : List String) :
    (distinct xs).Nodup ∧ ∀ x, x ∈ distinct xs ↔ x ∈ xs := by
  -- what was kept before stays in front of what is kept later
  have key : ∀ (xs seen : List String), seen.Nodup →
      let found := xs.foldl (fun seen x => if x ∈ seen then seen else seen ++ [x]) seen
      found.Nodup ∧ ∀ x, x ∈ found ↔ x ∈ seen ∨ x ∈ xs := by
    intro xs
    induction xs with
    | nil => simp
    | cons y ys ih =>
      intro seen hseen
      by_cases hy : y ∈ seen
      · have h := ih seen hseen
        simp only [List.foldl_cons, if_pos hy]
        refine ⟨h.1, fun x => ?_⟩
        rw [h.2, List.mem_cons]
        constructor
        · rintro (hx | hx)
          · exact .inl hx
          · exact .inr (.inr hx)
        · rintro (hx | rfl | hx)
          · exact .inl hx
          · exact .inl hy
          · exact .inr hx
      · have h := ih (seen ++ [y]) (hseen.append (List.nodup_singleton y) (by simpa using hy))
        simp only [List.foldl_cons, if_neg hy]
        refine ⟨h.1, fun x => ?_⟩
        rw [h.2, List.mem_append, List.mem_singleton, List.mem_cons, or_assoc]
  simpa [distinct] using key xs [] List.nodup_nil

/-- There is a resource for every name of an entry that is not reserved, with the operations
    under that name. -/
theorem mem_grouped_iff {es : List Entry} {r : Resource} :
    r ∈ grouped es ↔ ∃ name, name ∈ es.map (·.resource) ∧ isReserved name = false ∧
      r = resourceOf name (operationsIn es name) := by
  simp only [grouped, List.mem_map, List.mem_mergeSort, List.mem_filter, (distinct_spec _).2,
    Bool.not_eq_true', and_assoc, eq_comm (a := r)]

/-- Resources are sorted by name, and no two have the same. -/
theorem pairwise_name_grouped (es : List Entry) :
    ((grouped es).map (·.name)).Pairwise (· < ·) := by
  have hnames : ((grouped es).map (·.name)) =
      ((distinct (es.map (·.resource))).filter (!isReserved ·)).mergeSort
        fun a b => decide (a ≤ b) := by
    simp [grouped, Function.comp_def, resourceOf]
  have hnodup := (distinct_spec (es.map (·.resource))).1.filter (!isReserved ·)
  rw [← List.map_id (List.filter _ _)] at hnodup
  rw [hnames, ← List.map_id (List.mergeSort _ _)]
  exact pairwise_map_sorted id hnodup

/-! ### The partition -/

/-- Items that are related over items between them. -/
private theorem forall₂_comp {α β γ : Type} {R : α → β → Prop} {S : β → γ → Prop} {xs : List α}
    {ys : List β} {zs : List γ} (h : List.Forall₂ R xs ys) (h' : List.Forall₂ S ys zs) :
    List.Forall₂ (fun x z => ∃ y, R x y ∧ S y z) xs zs := by
  induction h generalizing zs with
  | nil =>
    cases h'
    exact .nil
  | cons hxy _ ih =>
    cases h' with
    | cons hyz h' => exact .cons ⟨_, hxy, hyz⟩ (ih h')

/-- An operation is read from the endpoint of a candidate, under some name. -/
def Candidate.Yields (config : Config) (c : Candidate) (o : Operation) : Prop :=
  ∃ e name, c.accepted? config = some e ∧ e.read name = .ok o

/-- What is read from the endpoint of a candidate is read from the candidate. -/
theorem readAs_of_yields {c : Candidate} {o : Operation} (h : c.Yields config o) : c.ReadAs o := by
  obtain ⟨e, name, hc, hread⟩ := h
  obtain ⟨path, method, hpath, hmethod, -, -, -, hat⟩ :=
    endpoint?_eq_ok_some_iff.mp (accepted?_eq_some_iff.mp hc)
  obtain ⟨first, -, -, -, -, rfl⟩ := endpointAt?_eq_some_iff.mp hat
  obtain ⟨-, hmethod', hpath', -⟩ := read_spec hread
  exact ⟨path, method, hpath, hmethod, hpath', hmethod', _, _, name, hread⟩

/-- The operations of a resource are read from the endpoints of the candidates that belong to
    it. -/
theorem forall₂_yields {es : List Entry} (h : entries config document = .ok es)
    {resource : String} (hfree : isReserved resource = false) :
    List.Forall₂ (Candidate.Yields config)
      ((candidates document).filter (Candidate.BelongsTo config resource ·))
      (operationsIn es resource) := by
  have hfilter : List.Forall₂ Endpoint.ReadAs _ (es.filter (·.resource == resource)) :=
    List.rel_filter (p := fun e : Endpoint => e.resource == resource)
      (fun e x ⟨_, hx⟩ => by simp [hx.1]) (forall₂_entries h)
  rw [operationsIn, List.forall₂_map_right_iff]
  refine (forall₂_comp (forall₂_accepted hfree (candidates document)) hfilter).imp ?_
  rintro c x ⟨e, hc, name, hx⟩
  exact ⟨e, name, hc, hx.2⟩

/-- The operations of a resource are read from the candidates that belong to it. -/
theorem forall₂_operationsIn {es : List Entry} (h : entries config document = .ok es)
    {resource : String} (hfree : isReserved resource = false) :
    List.Forall₂ Candidate.ReadAs
      ((candidates document).filter (Candidate.BelongsTo config resource ·))
      (operationsIn es resource) :=
  (forall₂_yields h hfree).imp fun _ _ => readAs_of_yields

/-- A name stands for a resource of some entry when a candidate belongs to it. -/
theorem mem_resource_iff {es : List Entry} (h : entries config document = .ok es)
    {name : String} (hfree : isReserved name = false) :
    name ∈ es.map (·.resource) ↔ ∃ c ∈ candidates document, c.BelongsTo config name := by
  have hlength := (forall₂_operationsIn h hfree).length_eq
  constructor
  · intro hname
    obtain ⟨x, hx, rfl⟩ := List.mem_map.mp hname
    have hpos : 0 < (operationsIn es x.resource).length :=
      List.length_pos_of_mem (a := x.operation) (by
        simp only [operationsIn, List.mem_map, List.mem_filter]
        exact ⟨x, ⟨hx, by simp⟩, rfl⟩)
    rw [← hlength] at hpos
    obtain ⟨c, hc⟩ := List.exists_mem_of_length_pos hpos
    rw [List.mem_filter, decide_eq_true_eq] at hc
    exact ⟨c, hc⟩
  · rintro ⟨c, hc, hmem⟩
    have hpos : 0 < (operationsIn es name).length := by
      rw [← hlength]
      exact List.length_pos_of_mem (a := c) (by simp [hc, hmem])
    obtain ⟨o, ho⟩ := List.exists_mem_of_length_pos hpos
    simp only [operationsIn, List.mem_map, List.mem_filter, beq_iff_eq] at ho
    obtain ⟨x, ⟨hx, hr⟩, -⟩ := ho
    exact List.mem_map.mpr ⟨x, hx, hr⟩

/-- **The resources partition the accepted entries.**  They are sorted by name, each has one
    operation for every entry that belongs to it, in document order, and there is a resource
    wherever an entry belongs to one. -/
theorem extract_partition {resources : List Resource}
    (h : extract config document = .ok resources) :
    (resources.map (·.name)).Pairwise (· < ·) ∧
    (∀ r ∈ resources, List.Forall₂ Candidate.ReadAs
      ((candidates document).filter (Candidate.BelongsTo config r.name ·)) r.operations) ∧
    ∀ name, (∃ r ∈ resources, r.name = name) ↔
      ∃ c ∈ candidates document, c.BelongsTo config name := by
  cases hes : entries config document with
  | error e => simp [extract, hes, bind, Except.bind] at h
  | ok es =>
    simp only [extract, hes, bind, Except.bind, pure, Except.pure, Except.ok.injEq] at h
    subst h
    refine ⟨pairwise_name_grouped es, ?_, fun name => ?_⟩
    · intro r hr
      obtain ⟨name, -, hfree, rfl⟩ := mem_grouped_iff.mp hr
      exact forall₂_operationsIn hes hfree
    · constructor
      · rintro ⟨r, hr, rfl⟩
        obtain ⟨name, hname, hfree, rfl⟩ := mem_grouped_iff.mp hr
        exact (mem_resource_iff hes hfree).mp hname
      · rintro ⟨c, hc, hmem⟩
        obtain ⟨e, -, -, hfree⟩ := belongsTo_iff.mp hmem
        exact ⟨_, mem_grouped_iff.mpr
          ⟨name, (mem_resource_iff hes hfree).mpr ⟨c, hc, hmem⟩, hfree, rfl⟩, rfl⟩

/-- Two segments that name one resource, an excluded one, and a reserved one. -/
def mixedDocument : Value :=
  .object [("paths", .object
    [("/api/v1/users", .object [("get", .object []), ("summary", .str "Users")]),
     ("/api/v1/abl/{id}", .object [("get", .object [])]),
     ("/api/v1/user/{id}", .object [("Delete", .object []), ("head", .object [])]),
     ("/api/v1/status", .object [("get", .object [])])])]

theorem extract_partition_mixedDocument :
    ∃ resources, extract { excludedResources := some ["ABL"] } mixedDocument = .ok resources ∧
      (resources.map (·.name)).Pairwise (· < ·) ∧
      (∃ r ∈ resources, r.name = "user" ∧ r.operations.length = 2) ∧
      ¬∃ r ∈ resources, r.name = "abl" := by
  have hok : (extract { excludedResources := some ["ABL"] } mixedDocument).toBool = true := by
    decide +kernel
  cases h : extract { excludedResources := some ["ABL"] } mixedDocument with
  | error e => simp [h, Except.toBool] at hok
  | ok resources =>
    obtain ⟨hsorted, hread, hnames⟩ := extract_partition h
    refine ⟨resources, rfl, hsorted, ?_, ?_⟩
    · obtain ⟨r, hr, hname⟩ := (hnames "user").mpr (by decide +kernel)
      refine ⟨r, hr, hname, ?_⟩
      rw [← (hread r hr).length_eq, hname]
      decide +kernel
    · rw [hnames]
      decide +kernel

end ApiNodes.Api
