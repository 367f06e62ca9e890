import ApiNodes.Proofs.Extraction.Partition

namespace ApiNodes.Api

/-!
# Filtering is deleting

A configuration rejects entries of a document by its methods, its tags, its resources and its
operation ids.  The same resources are extracted without a configuration once these entries are
taken out of the document: a rejected entry takes no name and describes no resource.

* `endpoint?_of_rejected`, `endpoint?_of_not_rejected` — one step: a rejected entry is passed over,
  and any other is looked at as without a configuration;
* `survey_filter` — the whole walk;
* `candidates_deleteRejected` — what is left of a document;
* `extract_deleteRejected` — the resources.
-/

variable {config : Config} {c : Candidate} {method : String}

/-! ### Rejected entries -/

/-- A filter of a configuration rejects what stands under a method of a path: the method is not
    among those to take, no tag is, the resource that the path names is to be left out, or the
    operation id is to be left out of it. -/
inductive Config.Rejects (config : Config) (c : Candidate) (method : String) : Prop
  | method {ms : List String} : config.allowedMethods = some ms → ms ≠ [] →
    Text.upper method ∉ ms → Rejects config c method
  | tags {ts : List String} : config.includedTags = some ts → ts ≠ [] →
    (∀ t ∈ ts, t ∉ tagsOf c.operation) → Rejects config c method
  | resource {path first : String} {rs : List String} : c.path = .str path →
    FirstSegment path first → config.excludedResources = some rs →
    Text.lower (Name.resource first) ∈ rs.map Text.lower → Rejects config c method
  | operation {path first i : String} {table : List (String × List String)} {ids : List String} :
    c.path = .str path → FirstSegment path first → config.excludedOperations = some table →
    lookup? (Name.resource first) table = some ids →
    Value.atKey? "operationId" c.operation = some (.str i) → i ≠ "" → i ∈ ids →
    Rejects config c method

/-- An operation object is the entry of a method of the service, and a filter rejects it. -/
def Candidate.Rejected (config : Config) (c : Candidate) : Prop :=
  ∃ method, c.method = .str method ∧ Text.upper method ∈ methods ∧ config.Rejects c method

/-- No filter rejects an entry when its method and its tags pass, and neither the resource that its
    path names nor its operation is left out. -/
theorem not_rejects_iff : ¬ config.Rejects c method ↔
    config.allowsMethod (Text.upper method) = true ∧ config.allowsTags c.operation = true ∧
      ∀ path first, c.path = .str path → FirstSegment path first →
        config.excludesResource (Name.resource first) = false ∧
          config.excludesOperation (Name.resource first) c.operation = false := by
  simp only [allowsMethod_iff, allowsTags_iff, excludesResource_eq_false_iff,
    excludesOperation_eq_false_iff]
  constructor
  · intro h
    refine ⟨fun ms hms hne => ?_, fun ts hts hne => ?_, fun path first hpath hfirst =>
      ⟨fun rs hrs hmem => h (.resource hpath hfirst hrs hmem),
        fun table ids i htable hids hi hne hmem =>
          h (.operation hpath hfirst htable hids hi hne hmem)⟩⟩
    · by_contra hmem
      exact h (.method hms hne hmem)
    · by_contra hnone
      exact h (.tags hts hne fun t ht hmem => hnone ⟨t, ht, hmem⟩)
  · rintro ⟨hmethod, htags, hpath⟩ h
    cases h with
    | method hms hne hmem => exact hmem (hmethod _ hms hne)
    | tags hts hne hnone =>
      obtain ⟨t, ht, hmem⟩ := htags _ hts hne
      exact hnone t ht hmem
    | resource hstr hfirst hrs hmem => exact (hpath _ _ hstr hfirst).1 _ hrs hmem
    | operation hstr hfirst htable hids hi hne hmem =>
      exact (hpath _ _ hstr hfirst).2 _ _ _ htable hids hi hne hmem

/-- A filter rejects an entry, as it can be computed. -/
def Config.rejects (config : Config) (c : Candidate) (method : String) : Bool :=
  !(config.allowsMethod (Text.upper method) && config.allowsTags c.operation &&
    ((c.path.str?.bind fun path => (segments path).head?).all fun first =>
      !config.excludesResource (Name.resource first) &&
        !config.excludesOperation (Name.resource first) c.operation))

theorem rejects_iff : config.rejects c method = true ↔ config.Rejects c method := by
  rw [← not_iff_not, not_rejects_iff]
  have hstr (path : String) : c.path.str? = some path ↔ c.path = .str path := by
    cases c.path <;> simp [Value.str?]
  simp only [Config.rejects, Bool.not_eq_true', Bool.not_eq_false, Bool.and_eq_true, and_assoc,
    Option.all_eq_true, Option.bind_eq_some_iff, hstr, firstSegment_iff]
  simp only [forall_exists_index, and_imp]
  refine and_congr_right fun _ => and_congr_right fun _ => ?_
  exact ⟨fun h path first hpath => h first path hpath, fun h first path hpath => h path first hpath⟩

instance : Decidable (c.Rejected config) :=
  decidable_of_iff ((c.method.str?.any fun m => decide (Text.upper m ∈ methods) &&
      config.rejects c m) = true) (by
    simp only [Candidate.Rejected, ← rejects_iff]
    cases c.method <;> simp [Value.str?])

/-! ### The walk -/

/-- **A rejected entry is passed over.** -/
theorem endpoint?_of_rejected (h : c.Rejected config) : c.endpoint? config = .ok none := by
  obtain ⟨m, hm, hknown, hrejects⟩ := h
  have hmethod : c.method? = .ok (some (Text.upper m)) := by
    simp [Candidate.method?, hm, hknown]
  unfold Candidate.endpoint?
  rw [hmethod]
  by_cases hpass : config.allowsMethod (Text.upper m) = true ∧ config.allowsTags c.operation = true
  · -- the path is looked at, and what it names is left out
    have hpath : ∃ path first, c.path = .str path ∧ FirstSegment path first ∧
        ¬ (config.excludesResource (Name.resource first) = false ∧
          config.excludesOperation (Name.resource first) c.operation = false) := by
      by_contra hnone
      refine not_rejects_iff.mpr ⟨hpass.1, hpass.2, fun path first hpath hfirst => ?_⟩ hrejects
      by_contra hout
      exact hnone ⟨path, first, hpath, hfirst, hout⟩
    obtain ⟨path, first, hpath, hfirst, hout⟩ := hpath
    have hat : endpointAt? config (Text.upper m) path c.operation = none := by
      rw [Option.eq_none_iff_forall_ne_some]
      intro e he
      obtain ⟨first', hfirst', -, hincluded, hkept, -⟩ := endpointAt?_eq_some_iff.mp he
      rw [firstSegment_iff.mp hfirst] at hfirst'
      cases hfirst'
      exact hout ⟨hincluded, hkept⟩
    simp [hpass, Candidate.pathText, hpath, hat, bind, Except.bind, pure, Except.pure]
  · have hfail : (config.allowsMethod (Text.upper m) && config.allowsTags c.operation) = false := by
      simpa using hpass
    simp [hfail, bind, Except.bind, pure, Except.pure]

/-- **Any other entry is looked at** as without a configuration, and fails where it fails then. -/
theorem endpoint?_of_not_rejected (h : ¬ c.Rejected config) :
    c.endpoint? config = c.endpoint? {} := by
  unfold Candidate.endpoint?
  cases hmethod : c.method? with
  | error e => rfl
  | ok found =>
    cases found with
    | none => rfl
    | some method =>
      -- the method is one of the service's
      obtain ⟨m, hm, hknown, rfl⟩ : ∃ m, c.method = .str m ∧ Text.upper m ∈ methods ∧
          Text.upper m = method := by
        unfold Candidate.method? at hmethod
        split at hmethod
        · rename_i m hm
          split at hmethod
          · rename_i hknown
            simp only [Except.ok.injEq, Option.some.injEq] at hmethod
            exact ⟨m, hm, hknown, hmethod⟩
          · cases hmethod
        · cases hmethod
        · cases hmethod
      have hkept : ¬ config.Rejects c m := fun hrejects => h ⟨m, hm, hknown, hrejects⟩
      obtain ⟨hallowed, htagged, hpath⟩ := not_rejects_iff.mp hkept
      have hat (path : String) (hstr : c.path = .str path) :
          endpointAt? config (Text.upper m) path c.operation =
            endpointAt? {} (Text.upper m) path c.operation := by
        have hnothing (resource : String) :
            Config.excludesOperation {} resource c.operation = false :=
          excludesOperation_eq_false_iff.mpr (by simp)
        unfold endpointAt?
        cases hsegments : segments path with
        | nil => rfl
        | cons first rest =>
          obtain ⟨hincluded, hkept⟩ := hpath path first hstr
            (firstSegment_iff.mpr (by rw [hsegments]; rfl))
          have hall : Config.excludesResource {} (Name.resource first) = false := rfl
          simp only [hincluded, hkept, hall, hnothing]
      have hallowed' : Config.allowsMethod {} (Text.upper m) = true := rfl
      have htagged' : Config.allowsTags {} c.operation = true := rfl
      simp only [bind, Except.bind, hallowed, htagged, hallowed', htagged', Bool.and_self, if_true]
      cases htext : c.pathText with
      | error e => rfl
      | ok path =>
        have hstr : c.path = .str path := by
          unfold Candidate.pathText at htext
          split at htext
          · rename_i hc
            rw [hc, Except.ok.inj htext]
          · cases htext
          · cases htext
        simp only [hat path hstr]

/-- **The walk** under a configuration is the walk without one over the entries that are not
    rejected. -/
theorem survey_filter (config : Config) (cs : List Candidate) :
    survey {} (cs.filter fun c => !decide (c.Rejected config)) = survey config cs := by
  induction cs with
  | nil => rfl
  | cons c cs ih =>
    by_cases h : c.Rejected config
    · rw [List.filter_cons_of_neg (by simp [h]), ih, survey, endpoint?_of_rejected h]
      rfl
    · rw [List.filter_cons_of_pos (by simp [h]), survey, survey, ih, endpoint?_of_not_rejected h]

/-! ### Deleting entries -/

/-- What stands under a path, without the entries that a configuration rejects. -/
def Config.itemWithout (config : Config) (path item : Value) : Value :=
  match item.entries? with
  | none => item
  | some es => .map (es.filter fun (method, operation) =>
      !(operation.entries?.any fun fields =>
        decide (Candidate.Rejected config ⟨path, method, fields⟩)))

/-- The paths of a document, without the entries that a configuration rejects. -/
def Config.pathsWithout (config : Config) (paths : Value) : Value :=
  match paths.entries? with
  | none => paths
  | some items => .map (items.map fun (path, item) => (path, config.itemWithout path item))

/-- A document from which the entries are deleted that a configuration rejects; all else in it
    stays. -/
def Config.deleteRejected (config : Config) (document : Value) : Value :=
  match document.entries? with
  | none => document
  | some fields =>
    .map (fields.map fun (key, v) => (key, if key.isStr "paths" then config.pathsWithout v else v))

/-- The value at a key is the one that was changed there. -/
theorem atKey?_map (key : String) (f : Value → Value) (fields : List (Value × Value)) :
    Value.atKey? key (fields.map fun (k, v) => (k, if k.isStr key then f v else v)) =
      (Value.atKey? key fields).map f := by
  induction fields with
  | nil => rfl
  | cons p fields ih =>
    obtain ⟨k, v⟩ := p
    rw [List.map_cons, Value.atKey?, Value.atKey?, ih]
    by_cases hk : k.isStr key = true <;> simp [hk]

/-- The path items that are left. -/
theorem pathItems_deleteRejected (config : Config) (document : Value) :
    pathItems (config.deleteRejected document) =
      (pathItems document).map fun (path, item) => (path, config.itemWithout path item) := by
  unfold pathItems Config.deleteRejected
  cases hfields : document.entries? with
  | none => simp [Value.get?, hfields]
  | some fields =>
    simp only [Value.get?, hfields, Value.entries?_map, Option.bind_some, atKey?_map]
    cases Value.atKey? "paths" fields with
    | none => rfl
    | some paths =>
      rw [Option.map_some, Option.bind_some, Option.bind_some, Config.pathsWithout]
      cases hitems : paths.entries? with
      | none => simp [hitems]
      | some items => simp

/-- **What is left of a document** are the entries that are not rejected. -/
theorem candidates_deleteRejected (config : Config) (document : Value) :
    candidates (config.deleteRejected document) =
      (candidates document).filter fun c => !decide (c.Rejected config) := by
  rw [candidates_eq_candidatesUnder, candidates_eq_candidatesUnder, pathItems_deleteRejected,
    candidatesUnder, candidatesUnder, List.flatMap_map, List.filter_flatMap]
  congr 1
  funext ⟨path, item⟩
  have hentries : (config.itemWithout path item).entries?.getD [] =
      (item.entries?.getD []).filter fun (method, operation) =>
        !(operation.entries?.any fun fields =>
          decide (Candidate.Rejected config ⟨path, method, fields⟩)) := by
    unfold Config.itemWithout
    cases hes : item.entries? with
    | none => simp [hes]
    | some es => simp
  -- entries are deleted before their operations are looked for, candidates are filtered after
  simp only [hentries, List.filterMap_filter, List.filter_filterMap]
  congr 1
  funext ⟨method, operation⟩
  cases operation.entries? with
  | none => simp
  | some fields =>
    by_cases hrejected : Candidate.Rejected config ⟨path, method, fields⟩ <;>
      simp [hrejected, Option.filter]

/-- **Filtering is deleting.**  A document from which the rejected entries are deleted has all
    other entries, in the same order, and without a configuration it is extracted as the whole
    document is under the configuration: to the same resources with the same operations, names,
    descriptions and schemas, or to the same failure. -/
theorem extract_deleteRejected (config : Config) (document : Value) :
    candidates (config.deleteRejected document) =
      (candidates document).filter (fun c => !decide (c.Rejected config)) ∧
    extract {} (config.deleteRejected document) = extract config document := by
  refine ⟨candidates_deleteRejected config document, ?_⟩
  have hentries : entries {} (config.deleteRejected document) = entries config document := by
    unfold entries
    rw [candidates_deleteRejected, survey_filter]
  unfold extract
  rw [hentries]

end ApiNodes.Api
