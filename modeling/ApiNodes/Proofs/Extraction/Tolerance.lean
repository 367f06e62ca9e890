import ApiNodes.Proofs.Extraction.Plain
import ApiNodes.Proofs.Extraction.References

namespace ApiNodes.Api

/-!
# The documents that are extracted

Extraction passes over what is out of place, but not over a text that is none: it gives the
document up there.  `Candidate.Fits` says what it asks of an operation object and of the keys
above it, down to the last field that it looks at.

* `read_returns_iff` — an operation is read when its texts are texts;
* `readAll_returns_iff`, `survey_returns_iff` — the walk goes to its end when every step does;
* `extract_returns_iff` — a document is extracted when all its candidates fit, and only then.
-/

variable {config : Config} {document declared v : Value} {c : Candidate} {e : Endpoint}
  {key name : String} {operation : List (Value × Value)}

/-! ### Texts -/

/-- A value stands for a text: it is one, or it is the bytes of one. -/
inductive IsText : Value → Prop
  | str (s : String) : IsText (.str s)
  | bytes {data : List UInt8} {s : String} (h : String.fromUTF8? ⟨data.toArray⟩ = some s) :
    IsText (.bytes data)

/-- A checked part is good. -/
def IsGood {α : Type} (a : Checked α) : Prop := ∃ x, a = .good x

/-- A record that is read from two checked parts is good when both are. -/
theorem isGood_seq {α β : Type} {f : Checked (α → β)} {a : Checked α} :
    IsGood (f <*> a) ↔ IsGood f ∧ IsGood a := by
  simp only [IsGood, seq_eq_good_iff]
  exact ⟨fun ⟨_, g, x, hf, ha, _⟩ => ⟨⟨g, hf⟩, x, ha⟩,
    fun ⟨⟨g, hf⟩, x, ha⟩ => ⟨g x, g, x, hf, ha, rfl⟩⟩

/-- A record that is read from one checked part is good when the part is. -/
theorem isGood_map {α β : Type} {f : α → β} {a : Checked α} : IsGood (f <$> a) ↔ IsGood a := by
  simp only [IsGood, map_eq_good_iff]
  exact ⟨fun ⟨_, x, ha, _⟩ => ⟨x, ha⟩, fun ⟨x, ha⟩ => ⟨f x, x, ha, rfl⟩⟩

/-- A part is good wherever it stands. -/
theorem isGood_under {α : Type} {p : Place} {a : Checked α} : IsGood (a.under p) ↔ IsGood a := by
  cases a <;> simp [IsGood, Checked.under]

/-- A record returns when it is good. -/
theorem checked_returns_iff {α : Type} {record : RecordKind} {a : Checked α} :
    (∃ x, checked record a = .ok x) ↔ IsGood a := by
  cases a <;> simp [IsGood, checked]

/-- A text is read from the values that stand for one. -/
theorem isGood_readText : IsGood (readText v) ↔ IsText v := by
  constructor
  · rintro ⟨s, h⟩
    unfold readText at h
    split at h
    · exact .str _
    · split at h
      · rename_i hdata
        exact .bytes hdata
      · cases h
    · cases h
  · rintro (s | hdata)
    · exact ⟨s, rfl⟩
    · exact ⟨_, by rw [readText, hdata]⟩

/-- A text that may be left out is read from the null value as well. -/
theorem isGood_readOptional : IsGood (readOptional readText v) ↔ v = .null ∨ IsText v := by
  rw [← isGood_readText]
  unfold readOptional
  split
  · simp [IsGood]
  · rename_i hnull
    rw [isGood_map, or_iff_right fun h => hnull h]

/-- A text, or what counts as present in its place. -/
theorem isText_firstTruthy_iff {found : Option Value} {otherwise : Value} (h : IsText otherwise) :
    IsText (firstTruthy [found] otherwise) ↔
      ∀ v, found = some v → v.isTruthy = true → IsText v := by
  cases found with
  | none => simpa [firstTruthy] using h
  | some v => cases hv : v.isTruthy <;> simp [firstTruthy, hv, h]

/-! ### Words -/

/-- The summary and the description of an operation are texts where they count as present. -/
def WordsFit (operation : List (Value × Value)) : Prop :=
  ∀ field ∈ ["summary", "description"], ∀ v, Value.atKey? field operation = some v →
    v.isTruthy = true → IsText v

/-- The label and the description are made from texts. -/
theorem isText_describe_iff :
    IsText (describe key operation).1 ∧ IsText (describe key operation).2 ↔
      WordsFit operation := by
  have hwords : WordsFit operation ↔
      (∀ v, Value.atKey? "summary" operation = some v → v.isTruthy = true → IsText v) ∧
        ∀ v, Value.atKey? "description" operation = some v → v.isTruthy = true → IsText v := by
    simp [WordsFit]
  rw [hwords, describe]
  cases hsummary : (Value.atKey? "summary" operation).filter Value.isTruthy with
  | some summary =>
    obtain ⟨hat, htruthy⟩ := Option.filter_eq_some_iff.mp hsummary
    have hfits : (∀ v, Value.atKey? "summary" operation = some v → v.isTruthy = true → IsText v) ↔
        IsText summary := by
      simp [hat, htruthy]
    rw [hfits]
    exact and_congr_right fun h => isText_firstTruthy_iff h
  | none =>
    have hfits : ∀ v, Value.atKey? "summary" operation = some v → v.isTruthy = true → IsText v := by
      intro v hv htruthy
      simp [hv, htruthy] at hsummary
    exact and_congr (iff_of_true (.str _) hfits) (isText_firstTruthy_iff (.str _))

/-! ### Parameters -/

/-- A declared parameter can be read: if it is a query parameter, its name is a text, and its
    description is one or counts as absent. -/
def ParameterFits (declared : Value) : Prop :=
  declared.get? "$ref" = none → declared.get? "in" = some (.str "query") →
    ∀ n, declared.get? "name" = some n → (∃ s, n = .str s) ∧
      ∀ d, declared.get? "description" = some d → d.isTruthy = true → IsText d

/-- A declared parameter is read, or passed over, when it fits. -/
theorem queryParameter?_returns_iff :
    (∃ p, queryParameter? declared = .ok p) ↔ ParameterFits declared := by
  have hquery {v : Option Value} : v.any (·.isStr "query") = true ↔ v = some (.str "query") := by
    cases v with
    | none => simp
    | some v => cases v <;> simp [Value.isStr]
  unfold queryParameter? ParameterFits
  cases hfields : declared.entries? with
  | none => simp [Value.get?, hfields]
  | some fields =>
    have hget (k : String) : declared.get? k = Value.atKey? k fields := by
      simp [Value.get?, hfields]
    simp only [hget]
    -- a reference is passed over, and so is a parameter of another place than the query
    cases href : Value.atKey? "$ref" fields with
    | some ref => simp
    | none =>
      by_cases hin : Value.atKey? "in" fields = some (.str "query")
      · rw [if_neg (by simp), if_pos (hquery.mpr hin)]
        cases hname : Value.atKey? "name" fields with
        | none => simp
        | some n =>
          cases n with
          | str s =>
            rw [checked_returns_iff, isGood_map, isGood_under, isGood_readText,
              isText_firstTruthy_iff (.str "")]
            simp [hin]
          | _ => simp [hin]
      · rw [if_neg (by simp), if_neg (by simpa [hquery] using hin)]
        simp [hin]

/-- Declared parameters are read when each of them fits. -/
theorem queryParameters_returns_iff {ps : List Value} :
    (∃ qs, queryParameters ps = .ok qs) ↔ ∀ declared ∈ ps, ParameterFits declared := by
  induction ps with
  | nil => simp [queryParameters]
  | cons p ps ih =>
    rw [List.forall_mem_cons, ← ih, ← queryParameter?_returns_iff, queryParameters]
    cases queryParameter? p with
    | error failure => simp [bind, Except.bind]
    | ok first => cases queryParameters ps <;> simp [bind, Except.bind, pure, Except.pure]

/-! ### Responses -/

/-- Responses can be read: up to the first of success with a reference, their statuses have
    texts, and that reference is a text. -/
def ResponsesFit (responses : List (Value × Value)) : Prop :=
  ∀ before response after, responses = before ++ response :: after →
    (∀ r ∈ before, ¬HasReference r) →
      (∃ status, response.1.text? = some status) ∧
        (HasReference response → IsText (schemaRef response.2))

/-- The first of some responses decides, or leaves it to the others. -/
theorem responsesFit_cons {r : Value × Value} {rs : List (Value × Value)} :
    ResponsesFit (r :: rs) ↔ (∃ status, r.1.text? = some status) ∧
      (HasReference r → IsText (schemaRef r.2)) ∧ (¬HasReference r → ResponsesFit rs) := by
  constructor
  · intro h
    obtain ⟨htext, hfits⟩ := h [] r rs rfl (by simp)
    refine ⟨htext, hfits, fun hr before response after heq hbefore => ?_⟩
    exact h (r :: before) response after (by rw [heq]; rfl) (List.forall_mem_cons.mpr ⟨hr, hbefore⟩)
  · rintro ⟨htext, hfits, hrest⟩ before response after heq hbefore
    cases before with
    | nil =>
      cases heq
      exact ⟨htext, hfits⟩
    | cons r' before =>
      cases heq
      rw [List.forall_mem_cons] at hbefore
      exact hrest hbefore.1 before response after rfl hbefore.2

/-- The reference of responses is read when they fit. -/
theorem firstRef_returns_iff {rs : List (Value × Value)} :
    (∃ ref, firstRef rs = .ok ref ∧ (ref = .null ∨ IsText ref)) ↔ ResponsesFit rs := by
  induction rs with
  | nil => simp [firstRef, ResponsesFit]
  | cons r rs ih =>
    -- a response that has a reference decides; any other is passed by
    obtain ⟨status, response⟩ := r
    rw [responsesFit_cons, ← ih]
    cases htext : status.text? with
    | none => simp [firstRef_of_no_text htext]
    | some s =>
      by_cases href : HasReference (status, response)
      · have hne := ne_null_of_isTruthy (hasReference_iff.mp href).2
        simp [firstRef_of_hasReference href, href, hne]
      · simp [firstRef_of_not_hasReference htext href, href]

/-! ### Operations -/

/-- An operation object can be read: what it says in words is text, and so are the names of its
    query parameters, its id, and its references to schemas. -/
structure OperationFits (operation : List (Value × Value)) : Prop where
  words : WordsFit operation
  id : ∀ v, Value.atKey? "operationId" operation = some v → v = .null ∨ IsText v
  parameters : ∀ declared ∈ declaredParameters operation, ParameterFits declared
  request : requestRef operation = .null ∨ IsText (requestRef operation)
  responses : ResponsesFit (((Value.atKey? "responses" operation).bind Value.entries?).getD [])

/-- **An operation is read when its object fits**, whatever its key, its path and its name are. -/
theorem read_returns_iff : (∃ o, e.read name = .ok o) ↔ OperationFits e.operation := by
  have hid : (∀ v, Value.atKey? "operationId" e.operation = some v → v = .null ∨ IsText v) ↔
      (Value.atKey? "operationId" e.operation).getD .null = .null ∨
        IsText ((Value.atKey? "operationId" e.operation).getD .null) := by
    cases Value.atKey? "operationId" e.operation <;> simp
  have hfits : OperationFits e.operation ↔
      (∃ qs, queryParameters (declaredParameters e.operation) = .ok qs) ∧
      (∃ ref, responseRef e.operation = .ok ref ∧ (ref = .null ∨ IsText ref)) ∧
      (IsText (describe e.key e.operation).1 ∧ IsText (describe e.key e.operation).2) ∧
      ((Value.atKey? "operationId" e.operation).getD .null = .null ∨
        IsText ((Value.atKey? "operationId" e.operation).getD .null)) ∧
      (requestRef e.operation = .null ∨ IsText (requestRef e.operation)) := by
    rw [queryParameters_returns_iff, responseRef, firstRef_returns_iff, isText_describe_iff, ← hid]
    constructor
    · intro h
      exact ⟨h.parameters, h.responses, h.words, h.id, h.request⟩
    · rintro ⟨hp, hr, hw, hi, hq⟩
      exact ⟨hw, hi, hp, hq, hr⟩
  -- the parameters and the responses are read before the fields of the record are checked
  rw [hfits, Endpoint.read, parametersOf, ← declaredParameters]
  cases queryParameters (declaredParameters e.operation) with
  | error failure => simp [bind, Except.bind]
  | ok declared =>
    cases responseRef e.operation with
    | error failure => simp [bind, Except.bind, pure, Except.pure]
    | ok response =>
      simp only [bind, Except.bind, pure, Except.pure]
      rw [checked_returns_iff, isGood_seq, isGood_seq, isGood_seq, isGood_seq, isGood_map]
      simp only [isGood_under, isGood_readText, isGood_readOptional]
      simp only [Except.ok.injEq, exists_eq', true_and, exists_eq_left']
      constructor
      · rintro ⟨⟨⟨hwords, hi⟩, hq⟩, hr⟩
        exact ⟨hr, hwords, hi, hq⟩
      · rintro ⟨hr, hwords, hi, hq⟩
        exact ⟨⟨⟨hwords, hi⟩, hq⟩, hr⟩

/-! ### Candidates -/

/-- The method and the tags of a candidate pass the filters, so that its path is looked at. -/
structure Candidate.Passes (config : Config) (c : Candidate) : Prop where
  known : ∃ method, c.method = .str method ∧ Text.upper method ∈ methods ∧
    ∀ ms, config.allowedMethods = some ms → ms ≠ [] → Text.upper method ∈ ms
  tagged : ∀ ts, config.includedTags = some ts → ts ≠ [] → ∃ t ∈ ts, t ∈ tagsOf c.operation

/-- The path of a candidate names a resource, and neither that nor the operation is left out, so
    that the operation object is read. -/
def Candidate.Leads (config : Config) (c : Candidate) : Prop :=
  ∃ path first, c.path = .str path ∧ FirstSegment path first ∧ Text.lower first ∉ reserved ∧
    (∀ rs, config.excludedResources = some rs →
      Text.lower (Name.resource first) ∉ rs.map Text.lower) ∧
    ∀ table ids i, config.excludedOperations = some table →
      lookup? (Name.resource first) table = some ids →
      Value.atKey? "operationId" c.operation = some (.str i) → i ≠ "" → i ∉ ids

/-- A candidate fits: its method is a text or bytes, its path is a text once it is looked at, and
    its operation object can be read once it is. -/
structure Candidate.Fits (config : Config) (c : Candidate) : Prop where
  method : (∃ m, c.method = .str m) ∨ ∃ data, c.method = .bytes data
  path : c.Passes config → ∃ p, c.path = .str p
  operation : c.Passes config → c.Leads config → OperationFits c.operation

/-- The filters let a candidate pass. -/
theorem passes_iff : c.Passes config ↔ ∃ method, c.method = .str method ∧
    Text.upper method ∈ methods ∧ config.allowsMethod (Text.upper method) = true ∧
      config.allowsTags c.operation = true := by
  simp only [allowsMethod_iff, allowsTags_iff]
  constructor
  · rintro ⟨⟨method, hmethod, hknown, hallowed⟩, htagged⟩
    exact ⟨method, hmethod, hknown, hallowed, htagged⟩
  · rintro ⟨method, hmethod, hknown, hallowed, htagged⟩
    exact ⟨⟨method, hmethod, hknown, hallowed⟩, htagged⟩

/-- The path of a candidate leads to an endpoint. -/
theorem leads_iff {method : String} : c.Leads config ↔
    ∃ path e, c.path = .str path ∧ endpointAt? config method path c.operation = some e := by
  simp only [endpointAt?_eq_some_iff, ← firstSegment_iff, excludesResource_eq_false_iff,
    excludesOperation_eq_false_iff, isReserved, decide_eq_false_iff_not]
  constructor
  · rintro ⟨path, first, hpath, hfirst, hfree, hincluded, hkept⟩
    exact ⟨path, _, hpath, first, hfirst, hfree, hincluded, hkept, rfl⟩
  · rintro ⟨path, _, hpath, first, hfirst, hfree, hincluded, hkept, -⟩
    exact ⟨path, first, hpath, hfirst, hfree, hincluded, hkept⟩

/-- Of a candidate it can be told whether it has an endpoint when its keys fit. -/
theorem endpoint?_returns_iff :
    (∃ found, c.endpoint? config = .ok found) ↔
      ((∃ m, c.method = .str m) ∨ ∃ data, c.method = .bytes data) ∧
        (c.Passes config → ∃ p, c.path = .str p) := by
  obtain ⟨path, method, operation⟩ := c
  rw [passes_iff, Candidate.endpoint?, Candidate.method?, Candidate.pathText]
  -- the path is not looked at before the filters let the candidate pass
  cases method with
  | str m =>
    by_cases hm : Text.upper m ∈ methods
    · by_cases hf : config.allowsMethod (Text.upper m) = true ∧ config.allowsTags operation = true
      · cases path <;> simp [hm, hf, bind, Except.bind, pure, Except.pure]
      · simp [hm, hf, bind, Except.bind, pure, Except.pure]
    · simp [hm, bind, Except.bind, pure, Except.pure]
  | _ => simp [bind, Except.bind, pure, Except.pure]

/-- A candidate is accepted when it passes and its path leads to a resource. -/
theorem exists_accepted_iff :
    (∃ e, c.accepted? config = some e) ↔ c.Passes config ∧ c.Leads config := by
  simp only [accepted?_eq_some_iff, endpoint?_eq_ok_some_iff]
  constructor
  · rintro ⟨e, path, method, hpath, hmethod, hknown, hallowed, htagged, he⟩
    exact ⟨passes_iff.mpr ⟨method, hmethod, hknown, hallowed, htagged⟩,
      leads_iff.mpr ⟨path, e, hpath, he⟩⟩
  · rintro ⟨hpasses, hleads⟩
    obtain ⟨method, hmethod, hknown, hallowed, htagged⟩ := passes_iff.mp hpasses
    obtain ⟨path, e, hpath, he⟩ := leads_iff.mp hleads
    exact ⟨e, path, method, hpath, hmethod, hknown, hallowed, htagged, he⟩

/-- The endpoint of a candidate has its operation object. -/
theorem operation_of_accepted (h : c.accepted? config = some e) : e.operation = c.operation := by
  obtain ⟨path, method, -, -, -, -, -, hat⟩ :=
    endpoint?_eq_ok_some_iff.mp (accepted?_eq_some_iff.mp h)
  obtain ⟨first, -, -, -, -, rfl⟩ := endpointAt?_eq_some_iff.mp hat
  rfl

/-! ### Documents -/

/-- A survey goes to the end when every candidate has an endpoint or none. -/
theorem survey_returns_iff {cs : List Candidate} :
    (survey config cs).2 = none ↔ ∀ c ∈ cs, ∃ found, c.endpoint? config = .ok found := by
  induction cs with
  | nil => simp [survey]
  | cons c cs ih =>
    rw [List.forall_mem_cons, ← ih, survey]
    cases c.endpoint? config <;> simp

/-- A survey that goes to the end finds the endpoints of the accepted candidates. -/
theorem fst_survey {cs : List Candidate}
    (h : ∀ c ∈ cs, ∃ found, c.endpoint? config = .ok found) :
    (survey config cs).1 = cs.filterMap (Candidate.accepted? config) := by
  have hend := survey_returns_iff.mpr h
  cases hs : survey config cs with
  | mk es failure =>
    rw [hs] at hend
    obtain rfl : failure = none := hend
    exact endpoints_of_survey hs

/-- All operations are read when each of their objects fits. -/
theorem readAll_returns_iff {ps : List (Endpoint × String)} :
    (∃ xs, readAll ps = .ok xs) ↔ ∀ p ∈ ps, OperationFits p.1.operation := by
  induction ps with
  | nil => simp [readAll]
  | cons p ps ih =>
    obtain ⟨e, name⟩ := p
    rw [List.forall_mem_cons, ← ih, ← @read_returns_iff e name, readAll]
    cases e.read name with
    | error failure => simp [bind, Except.bind]
    | ok o => cases readAll ps <;> simp [bind, Except.bind, pure, Except.pure]

/-- The entries of a document are read when the survey goes to the end, and every object that it
    finds fits. -/
theorem entries_returns_iff :
    (∃ xs, entries config document = .ok xs) ↔
      (survey config (candidates document)).2 = none ∧
        ∀ e ∈ (survey config (candidates document)).1, OperationFits e.operation := by
  rw [entries]
  cases survey config (candidates document) with
  | mk es failure =>
    have hzip : (es.zip (namesOf es)).map Prod.fst = es :=
      List.map_fst_zip (length_namesFrom [] es).ge
    have hread : (∃ xs, readAll (es.zip (namesOf es)) = .ok xs) ↔
        ∀ e ∈ es, OperationFits e.operation := by
      rw [readAll_returns_iff, ← hzip, List.forall_mem_map, hzip]
    simp only [← hread]
    -- what was found is read, even if the survey did not go to the end
    cases readAll (es.zip (namesOf es)) with
    | error e => simp [bind, Except.bind]
    | ok xs =>
      cases failure <;>
        simp [bind, Except.bind, pure, Except.pure, throw, throwThe, MonadExceptOf.throw]

/-- The entries of a document are read when the survey goes to the end, and finds endpoints that
    are found where entries are read. -/
theorem exists_entries_of_subset {config' : Config} {document' : Value} {xs : List Entry}
    (h : entries config' document' = .ok xs)
    (hsurvey : ∀ c ∈ candidates document, ∃ found, c.endpoint? config = .ok found)
    (hsub : acceptedEndpoints config document ⊆ acceptedEndpoints config' document') :
    ∃ ys, entries config document = .ok ys := by
  obtain ⟨hsurvey', hfits⟩ := entries_returns_iff.mp ⟨xs, h⟩
  rw [fst_survey (survey_returns_iff.mp hsurvey')] at hfits
  refine entries_returns_iff.mpr ⟨survey_returns_iff.mpr hsurvey, fun e he => ?_⟩
  rw [fst_survey hsurvey] at he
  exact hfits e (hsub he)

/-- **A document is extracted when all its candidates fit**, and only then. -/
theorem extract_returns_iff :
    (∃ resources, extract config document = .ok resources) ↔
      ∀ c ∈ candidates document, c.Fits config := by
  have hentries : (∃ resources, extract config document = .ok resources) ↔
      ∃ xs, entries config document = .ok xs := by
    rw [extract]
    cases entries config document <;> simp [bind, Except.bind, pure, Except.pure]
  rw [hentries, entries_returns_iff, survey_returns_iff]
  constructor
  · rintro ⟨hsurvey, hfits⟩ c hc
    obtain ⟨hmethod, hpath⟩ := endpoint?_returns_iff.mp (hsurvey c hc)
    refine ⟨hmethod, hpath, fun hpasses hleads => ?_⟩
    obtain ⟨e, he⟩ := exists_accepted_iff.mpr ⟨hpasses, hleads⟩
    rw [fst_survey hsurvey] at hfits
    rw [← operation_of_accepted he]
    exact hfits e (List.mem_filterMap.mpr ⟨c, hc, he⟩)
  · intro h
    have hsurvey : ∀ c ∈ candidates document, ∃ found, c.endpoint? config = .ok found :=
      fun c hc => endpoint?_returns_iff.mpr ⟨(h c hc).method, (h c hc).path⟩
    refine ⟨hsurvey, fun e he => ?_⟩
    rw [fst_survey hsurvey] at he
    obtain ⟨c, hc, he⟩ := List.mem_filterMap.mp he
    obtain ⟨hpasses, hleads⟩ := exists_accepted_iff.mp ⟨e, he⟩
    rw [operation_of_accepted he]
    exact (h c hc).operation hpasses hleads

/-- Users are listed under a summary that is a number. -/
def numberedDocument : Value :=
  .object [("paths", .object [("/api/v1/users", .object
    [("get", .object [("summary", .int 5)])])])]

/-- **A summary that is a number** is not passed over: the document is given up. -/
theorem extract_gives_up_numberedDocument :
    ¬ ∃ resources, extract {} numberedDocument = .ok resources := by
  have hfails : (extract {} numberedDocument).toBool = false := by decide +kernel
  rintro ⟨resources, h⟩
  rw [h] at hfails
  cases hfails

end ApiNodes.Api
