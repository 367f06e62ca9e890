import ApiNodes.Proofs.Extraction.Plain

namespace ApiNodes.Api

/-!
# Reworded documents

Two documents are reworded when they have the same paths, methods and parameters; the rest of
their operations may differ, and so may the descriptions and schemas of the parameters.  Under a
configuration that looks at no words the same requests are extracted from both.

* `rel_accepted?` — the same candidates are accepted, as the same endpoints;
* `namesFrom_congr`, `sameRequest_of_read` — they have the same names and make the same requests;
* `forall₂_sameRequests` — the resources are the same, up to words.
-/

variable {config : Config} {document document' declared declared' : Value} {c c' : Candidate}
  {e e' : Endpoint} {es es' : List Endpoint} {o o' : Operation} {r r' : Resource}
  {resources resources' : List Resource} {xs xs' : List Entry} {name : String}

/-! ### Rewording -/

/-- Two values have the same keys in the same order, with related values under them.  A value that
    is no mapping has no keys. -/
def SameKeys (R : Value → Value → Prop) (v v' : Value) : Prop :=
  List.Forall₂ (fun e e' => e.1 = e'.1 ∧ R e.2 e'.2) (v.entries?.getD []) (v'.entries?.getD [])

/-- Two declared parameters differ in their descriptions and schemas at most. -/
def ParameterReworded (declared declared' : Value) : Prop :=
  ∀ key, key ≠ "description" → key ≠ "schema" → declared.get? key = declared'.get? key

/-- Two operation objects declare the same parameters, up to words. -/
def DeclareAlike (operation operation' : List (Value × Value)) : Prop :=
  List.Forall₂ ParameterReworded (declaredParameters operation) (declaredParameters operation')

/-- Two values are operation objects that declare the same parameters, or neither is one. -/
def OperationReworded (v v' : Value) : Prop := Option.Rel DeclareAlike v.entries? v'.entries?

/-- Two documents are reworded: under the same paths and methods stand operations that declare the
    same parameters. -/
def Reworded (document document' : Value) : Prop :=
  SameKeys (SameKeys OperationReworded) ((document.get? "paths").getD .null)
    ((document'.get? "paths").getD .null)

/-- A configuration looks at no words: it asks for no tags, and leaves out no operation ids. -/
structure Config.Wordless (config : Config) : Prop where
  tags : config.includedTags.getD [] = []
  operations : config.excludedOperations.getD [] = []

/-- Items that are related are made into the same ones. -/
theorem map_eq_map_of_forall₂ {α β γ : Type} {R : α → β → Prop} {f : α → γ} {g : β → γ}
    {xs : List α} {ys : List β} (h : List.Forall₂ R xs ys) (hfg : ∀ x y, R x y → f x = g y) :
    xs.map f = ys.map g := by
  rw [← List.forall₂_eq_eq_eq, List.forall₂_map_left_iff, List.forall₂_map_right_iff]
  exact h.imp hfg

/-! ### Candidates and endpoints -/

/-- Two candidates stand under the same path and method and declare the same parameters. -/
structure Candidate.Reworded (c c' : Candidate) : Prop where
  path : c.path = c'.path
  method : c.method = c'.method
  parameters : DeclareAlike c.operation c'.operation

/-- Two endpoints are the same but for the words of their operation objects. -/
structure Endpoint.Reworded (e e' : Endpoint) : Prop where
  resource : e.resource = e'.resource
  key : e.key = e'.key
  method : e.method = e'.method
  path : e.path = e'.path
  parameters : DeclareAlike e.operation e'.operation

/-- The candidates of reworded documents. -/
theorem forall₂_candidates (h : Reworded document document') :
    List.Forall₂ Candidate.Reworded (candidates document) (candidates document') := by
  have hentries (d : Value) : ((d.get? "paths").bind Value.entries?).getD [] =
      ((d.get? "paths").getD .null).entries?.getD [] := by
    cases d.get? "paths" <;> rfl
  rw [candidates, candidates, hentries, hentries]
  refine List.rel_flatMap h fun {p p'} hp => List.rel_filterMap ?_ hp.2
  rintro ⟨method, operation⟩ ⟨method', operation'⟩ ⟨hmethod, hoperation⟩
  show Option.Rel _ (operation.entries?.map fun fields => Candidate.mk p.1 method fields)
    (operation'.entries?.map fun fields => Candidate.mk p'.1 method' fields)
  change Option.Rel DeclareAlike operation.entries? operation'.entries? at hoperation
  -- the relation is taken apart between variables only
  generalize operation.entries? = fields at hoperation ⊢
  generalize operation'.entries? = fields' at hoperation ⊢
  cases hoperation with
  | none => exact .none
  | some hdeclare => exact .some ⟨hp.1, hmethod, hdeclare⟩

/-- A configuration that looks at no words takes every tag. -/
theorem Config.Wordless.allowsTags (h : config.Wordless) (operation : List (Value × Value)) :
    config.allowsTags operation = true := by
  refine allowsTags_iff.mpr fun ts hts hne => absurd ?_ hne
  simpa [hts] using h.tags

/-- A configuration that looks at no words leaves out no operation. -/
theorem Config.Wordless.excludesOperation (h : config.Wordless) (resource : String)
    (operation : List (Value × Value)) : config.excludesOperation resource operation = false := by
  refine excludesOperation_eq_false_iff.mpr fun table ids i htable hids _ _ => ?_
  obtain rfl : table = [] := by simpa [htable] using h.operations
  cases hids

/-- Reworded candidates are accepted as reworded endpoints. -/
theorem rel_accepted? (hconfig : config.Wordless) (h : c.Reworded c') :
    Option.Rel Endpoint.Reworded (c.accepted? config) (c'.accepted? config) := by
  obtain ⟨path, method, operation⟩ := c
  obtain ⟨path', method', operation'⟩ := c'
  obtain ⟨rfl, rfl, hparameters⟩ := h
  have hat (m p : String) : Option.Rel Endpoint.Reworded (endpointAt? config m p operation)
      (endpointAt? config m p operation') := by
    unfold endpointAt?
    cases segments p with
    | nil => exact .none
    | cons first rest =>
      simp only [hconfig.excludesOperation]
      split
      · exact .none
      · exact .some ⟨rfl, rfl, rfl, rfl, hparameters⟩
  -- neither the tags nor the operation ids are asked for, and the rest is the same in both
  unfold Candidate.accepted? Candidate.endpoint? Candidate.method? Candidate.pathText
  simp only [hconfig.allowsTags]
  cases method with
  | str m =>
    by_cases hm : Text.upper m ∈ methods
    · by_cases hf : config.allowsMethod (Text.upper m) = true
      · cases path with
        | str p =>
          simp only [hm, hf, if_true, bind, Except.bind, pure, Except.pure, Except.toOption]
          exact hat _ p
        | _ =>
          simp only [hm, hf, if_true, bind, Except.bind, Except.toOption]
          exact .none
      · simp only [hm, hf, if_true, bind, Except.bind, pure, Except.pure, Except.toOption]
        exact .none
    · simp only [hm, if_false, bind, Except.bind, pure, Except.pure, Except.toOption]
      exact .none
  | _ => exact .none

/-- Names are given without looking at words. -/
theorem namesFrom_congr (h : List.Forall₂ Endpoint.Reworded es es')
    (done : List (String × String)) : namesFrom done es = namesFrom done es' := by
  induction h generalizing done with
  | nil => rfl
  | cons he _ ih => rw [namesFrom, namesFrom, he.key, he.resource, ih]

/-! ### Requests -/

/-- Two operations make the same request. -/
structure Operation.SameRequest (o o' : Operation) : Prop where
  name : o.name = o'.name
  method : o.method = o'.method
  path : o.path = o'.path
  isList : o.isList = o'.isList
  pathParameters : o.pathParameters = o'.pathParameters
  queryNames : o.queryParameters.map (·.name) = o'.queryParameters.map (·.name)

/-- The name of a declared parameter, if it is a query parameter that is declared on the spot. -/
def queryName? (declared : Value) : Option String :=
  if declared.get? "$ref" = none ∧ (declared.get? "in").any (·.isStr "query") = true
  then (declared.get? "name").bind Value.str? else none

/-- What is read from a declared parameter has its name. -/
theorem map_name_queryParameter? {p : Option Parameter} (h : queryParameter? declared = .ok p) :
    p.map (·.name) = queryName? declared := by
  unfold queryParameter? at h
  -- a declaration that is no mapping, or is a reference or of another place, has no name
  cases hfields : declared.entries? with
  | none =>
    simp only [hfields, Except.ok.injEq] at h
    subst h
    simp [queryName?, Value.get?, hfields]
  | some fields =>
    have hget (k : String) : declared.get? k = Value.atKey? k fields := by
      simp [Value.get?, hfields]
    simp only [hfields] at h
    rw [queryName?, hget, hget, hget]
    split at h
    · rename_i href
      cases h
      rw [if_neg fun hquery => by simp [hquery.1] at href]
      rfl
    · rename_i href
      split at h
      · rename_i hin
        rw [if_pos ⟨by simpa using href, hin⟩]
        split at h
        · rename_i hname
          cases h
          simp [hname]
        · rename_i n hname
          unfold checked at h
          split at h
          · rename_i good hgood
            obtain ⟨description, -, hmade⟩ := map_eq_good_iff.mp hgood
            subst hmade
            cases h
            simp [hname, Value.str?]
          · cases h
        · cases h
      · rename_i hin
        cases h
        rw [if_neg fun hquery => hin hquery.2]
        rfl

/-- The names of query parameters are those of the declared ones. -/
theorem map_name_queryParameters {ps : List Value} {qs : List Parameter}
    (h : queryParameters ps = .ok qs) : qs.map (·.name) = ps.filterMap queryName? := by
  induction ps generalizing qs with
  | nil =>
    cases h
    rfl
  | cons p ps ih =>
    rw [queryParameters] at h
    cases hp : queryParameter? p with
    | error failure => simp [hp, bind, Except.bind] at h
    | ok first =>
      cases hps : queryParameters ps with
      | error failure => simp [hp, hps, bind, Except.bind] at h
      | ok rest =>
        simp only [hp, hps, bind, Except.bind, pure, Except.pure, Except.ok.injEq] at h
        subst h
        rw [List.map_append, ih hps, List.filterMap_cons, ← map_name_queryParameter? hp]
        cases first <;> rfl

/-- The names of query parameters are no words. -/
theorem filterMap_queryName?_congr {ps ps' : List Value}
    (h : List.Forall₂ ParameterReworded ps ps') :
    ps.filterMap queryName? = ps'.filterMap queryName? := by
  induction h with
  | nil => rfl
  | @cons p p' _ _ hp _ ih =>
    have hname : queryName? p = queryName? p' := by
      rw [queryName?, queryName?, hp "$ref" (by decide) (by decide),
        hp "in" (by decide) (by decide), hp "name" (by decide) (by decide)]
    rw [List.filterMap_cons, List.filterMap_cons, hname, ih]

/-- Operations that are read from reworded endpoints make the same request. -/
theorem sameRequest_of_read (he : e.Reworded e') (h : e.read name = .ok o)
    (h' : e'.read name = .ok o') : o.SameRequest o' := by
  obtain ⟨hname, hmethod, hpath, hlist, -⟩ := read_spec h
  obtain ⟨hname', hmethod', hpath', hlist', -⟩ := read_spec h'
  obtain ⟨hpaths, hqueries⟩ := parameters_spec h
  obtain ⟨hpaths', hqueries'⟩ := parameters_spec h'
  have hsame : o.path = o'.path := by rw [hpath, hpath', he.path]
  exact
    { name := hname.trans hname'.symm
      method := by rw [hmethod, hmethod', he.method]
      path := hsame
      isList := by rw [hlist, hlist', he.key]
      pathParameters := by rw [hpaths, hpaths', hsame]
      queryNames := by
        rw [map_name_queryParameters hqueries, map_name_queryParameters hqueries',
          filterMap_queryName?_congr he.parameters] }

/-- Two entries belong to one resource and make the same request. -/
def Entry.SameRequest (x x' : Entry) : Prop :=
  x.resource = x'.resource ∧ x.operation.SameRequest x'.operation

/-- Entries that are read from reworded endpoints under the same names make the same requests. -/
theorem forall₂_sameRequest {names : List String} (h : List.Forall₂ Endpoint.Reworded es es')
    (hxs : List.Forall₂ (fun p x => p.1.ReadUnder p.2 x) (es.zip names) xs)
    (hxs' : List.Forall₂ (fun p x => p.1.ReadUnder p.2 x) (es'.zip names) xs') :
    List.Forall₂ Entry.SameRequest xs xs' := by
  induction h generalizing names xs xs' with
  | nil =>
    cases hxs
    cases hxs'
    exact .nil
  | cons he _ ih =>
    cases names with
    | nil =>
      cases hxs
      cases hxs'
      exact .nil
    | cons name names =>
      cases hxs with
      | cons hx hxs =>
        cases hxs' with
        | cons hx' hxs' =>
          refine .cons ⟨?_, sameRequest_of_read he hx.2 hx'.2⟩ (ih hxs hxs')
          rw [hx.1, hx'.1, he.resource]

/-- The entries of reworded documents make the same requests. -/
theorem forall₂_entries_sameRequest (hconfig : config.Wordless) (hd : Reworded document document')
    (h : entries config document = .ok xs) (h' : entries config document' = .ok xs') :
    List.Forall₂ Entry.SameRequest xs xs' := by
  have hendpoints : List.Forall₂ Endpoint.Reworded (acceptedEndpoints config document)
      (acceptedEndpoints config document') :=
    List.rel_filterMap (fun {_ _} hc => rel_accepted? hconfig hc) (forall₂_candidates hd)
  have hxs' := forall₂_named_entries h'
  rw [namesOf, ← namesFrom_congr hendpoints] at hxs'
  exact forall₂_sameRequest hendpoints (forall₂_named_entries h) hxs'

/-! ### Resources -/

/-- Two resources have the same names and make the same requests. -/
structure Resource.SameRequests (r r' : Resource) : Prop where
  name : r.name = r'.name
  displayName : r.displayName = r'.displayName
  fileName : r.fileName = r'.fileName
  handlerClass : r.handlerClass = r'.handlerClass
  propertiesConstant : r.propertiesConstant = r'.propertiesConstant
  operations : List.Forall₂ Operation.SameRequest r.operations r'.operations

/-- Entries that make the same requests are grouped into resources that do. -/
theorem forall₂_grouped (h : List.Forall₂ Entry.SameRequest xs xs') :
    List.Forall₂ Resource.SameRequests (grouped xs) (grouped xs') := by
  have hresources : xs.map (·.resource) = xs'.map (·.resource) :=
    map_eq_map_of_forall₂ h fun _ _ hx => hx.1
  rw [grouped, grouped, hresources, List.forall₂_map_left_iff, List.forall₂_map_right_iff,
    List.forall₂_same]
  intro name _
  refine ⟨rfl, rfl, rfl, rfl, rfl, ?_⟩
  show List.Forall₂ _ (operationsIn xs name) (operationsIn xs' name)
  rw [operationsIn, operationsIn, List.forall₂_map_left_iff, List.forall₂_map_right_iff]
  exact (List.rel_filter (fun {x x'} hx => by simp [hx.1]) h).imp fun _ _ hx => hx.2

/-- **The same requests are extracted from reworded documents.** -/
theorem forall₂_sameRequests (hconfig : config.Wordless) (hd : Reworded document document')
    (h : extract config document = .ok resources)
    (h' : extract config document' = .ok resources') :
    List.Forall₂ Resource.SameRequests resources resources' := by
  obtain ⟨xs, hxs, rfl⟩ := extract_eq_ok_iff.mp h
  obtain ⟨xs', hxs', rfl⟩ := extract_eq_ok_iff.mp h'
  exact forall₂_grouped (forall₂_entries_sameRequest hconfig hd hxs hxs')

end ApiNodes.Api
