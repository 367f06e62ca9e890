import ApiNodes.Proofs.Extraction.Keys
import ApiNodes.Proofs.Path.Plain
import ApiNodes.Proofs.Typescript.TextKind

namespace ApiNodes.Api

open Name (All Wordy Closed)
open Typescript (Prose)

/-!
# Extraction from plain documents

A document is plain when its paths are and the names of its query parameters are prose; the
rest of its texts may be anything.  `plainResource_of_mem` says that what is extracted from
it has names that can stand in code: `PlainResource`, `PlainOperation`.
-/

variable {config : Config} {document : Value} {resources : List Resource} {r : Resource}
  {o : Operation} {e : Endpoint} {p : Parameter} {name : String}

/-! ### Plain documents -/

/-- The parameters that an operation object declares. -/
def declaredParameters (operation : List (Value × Value)) : List Value :=
  ((Value.atKey? "parameters" operation).bind Value.items?).getD []

/-- A declared parameter is a query parameter of a name. -/
def IsQueryParameter (declared : Value) (name : String) : Prop :=
  (declared.get? "in").any (·.isStr "query") = true ∧ declared.get? "name" = some (.str name)

/-- The paths under the root are plain, and the names of query parameters are prose. -/
structure PlainDocument (document : Value) : Prop where
  paths : ∀ c ∈ candidates document, ∀ path, c.path = .str path →
    Text.startsWith root path.toList = true → PlainPath path
  queries : ∀ c ∈ candidates document, ∀ declared ∈ declaredParameters c.operation, ∀ name,
    IsQueryParameter declared name → Prose name.toList

/-! ### Parameters -/

/-- What is read from a declared query parameter. -/
theorem queryParameter?_spec {declared : Value} (h : queryParameter? declared = .ok (some p)) :
    IsQueryParameter declared p.name ∧ p.displayName = Name.label p.name ∧
      (∃ schema, p.kind = fieldKind schema) ∧ p.location = "query" := by
  unfold queryParameter? at h
  cases hfields : declared.entries? with
  | none => simp [hfields] at h
  | some fields =>
    have hget (k : String) : declared.get? k = Value.atKey? k fields := by
      simp [Value.get?, hfields]
    simp only [hfields] at h
    -- references, and parameters of other places, are passed over
    split at h
    · cases h
    · split at h
      · rename_i hin
        split at h
        · cases h
        · rename_i n hname
          unfold checked at h
          split at h
          · rename_i good hgood
            obtain ⟨description, -, hmade⟩ := map_eq_good_iff.mp hgood
            subst hmade
            cases h
            exact ⟨⟨by rwa [hget], by rwa [hget]⟩, rfl, ⟨_, rfl⟩, rfl⟩
          · cases h
        · cases h
      · cases h

/-- A query parameter that is read is read from one that is declared. -/
theorem exists_of_mem_queryParameters {declared : List Value} {ps : List Parameter}
    (h : queryParameters declared = .ok ps) (hp : p ∈ ps) :
    ∃ v ∈ declared, queryParameter? v = .ok (some p) := by
  induction declared generalizing ps with
  | nil =>
    cases h
    cases hp
  | cons v vs ih =>
    rw [queryParameters] at h
    cases hv : queryParameter? v with
    | error failure => simp [hv, bind, Except.bind] at h
    | ok first =>
      cases hvs : queryParameters vs with
      | error failure => simp [hv, hvs, bind, Except.bind] at h
      | ok rest =>
        simp only [hv, hvs, bind, Except.bind, pure, Except.pure, Except.ok.injEq] at h
        subst h
        rcases List.mem_append.mp hp with hp | hp
        · obtain rfl := Option.mem_toList.mp hp
          exact ⟨v, List.mem_cons_self, hv⟩
        · obtain ⟨w, hw, hread⟩ := ih hvs hp
          exact ⟨w, List.mem_cons_of_mem v hw, hread⟩

/-- The path parameters of an operation are those of the placeholders of its path, and its
    query parameters are the declared ones. -/
theorem parameters_spec (h : e.read name = .ok o) :
    o.pathParameters = (placeholderNames o.path).map holeParameter ∧
      queryParameters (declaredParameters e.operation) = .ok o.queryParameters := by
  obtain ⟨-, -, hpath, -, hparameters⟩ := read_spec h
  unfold parametersOf at hparameters
  cases hdeclared : queryParameters (declaredParameters e.operation) with
  | error failure =>
    rw [declaredParameters] at hdeclared
    simp [hdeclared, bind, Except.bind] at hparameters
  | ok declared =>
    have hquery : ∀ p ∈ declared, p.location = "query" := fun p hp => by
      obtain ⟨v, -, hv⟩ := exists_of_mem_queryParameters hdeclared hp
      exact (queryParameter?_spec hv).2.2.2
    rw [declaredParameters] at hdeclared
    simp only [hdeclared, bind, Except.bind, pure, Except.pure, Except.ok.injEq] at hparameters
    have hholes : ∀ p ∈ (placeholderNames e.path).map holeParameter, p.location = "path" := by
      intro p hp
      obtain ⟨n, -, rfl⟩ := List.mem_map.mp hp
      rfl
    -- the filters by place take the two parts of the row apart again
    have hkeep {ps : List Parameter} {l : String} (hps : ∀ p ∈ ps, p.location = l) :
        ps.filter (·.location == l) = ps := by
      rw [List.filter_eq_self]
      exact fun p hp => by simpa using hps p hp
    have hdrop {ps : List Parameter} {l l' : String} (hps : ∀ p ∈ ps, p.location = l)
        (hne : l ≠ l') : ps.filter (·.location == l') = [] := by
      rw [List.filter_eq_nil_iff]
      exact fun p hp => by simpa [hps p hp] using hne
    constructor
    · rw [Operation.pathParameters, ← hparameters, List.filter_append, hkeep hholes,
        hdrop hquery (by decide), List.append_nil, hpath]
    · rw [Operation.queryParameters, ← hparameters, List.filter_append,
        hdrop hholes (by decide), hkeep hquery, List.nil_append]

/-- The names of the path parameters of an extracted operation are those of the placeholders of its
    path. -/
theorem names_pathParameters (h : extract config document = .ok resources) (hr : r ∈ resources)
    (ho : o ∈ r.operations) : o.pathParameters.map (·.name) = placeholderNames o.path := by
  obtain ⟨_, -, e, -, -, hread, -⟩ := origin_of_mem_operations h hr ho
  rw [(parameters_spec hread).1, List.map_map]
  exact List.map_id _

/-- The kinds of fields are names. -/
theorem wordy_fieldKind (schema : Value) : Wordy (fieldKind schema).toList := by
  have hstring : Wordy "string".toList := fun c hc =>
    List.all_eq_true.mp (show "string".toList.all Name.isWordy by decide) c hc
  unfold fieldKind
  split
  · rename_i t _
    cases hkind : fieldKinds.lookup t with
    | none => exact hstring
    | some kind =>
      obtain ⟨l₁, l₂, hkinds, -⟩ := List.lookup_eq_some_iff.mp hkind
      have hmem : (t, kind) ∈ fieldKinds := by simp [hkinds]
      have hall := List.all_eq_true.mp
        (show fieldKinds.all (·.2.toList.all Name.isWordy) = true by decide) (t, kind) hmem
      exact fun c hc => List.all_eq_true.mp hall c hc
  · exact hstring

/-! ### Operations -/

/-- The texts of an operation that stand in code. -/
structure PlainOperation (o : Operation) : Prop where
  name : Wordy o.name.toList
  method : Wordy o.method.toList
  path : PlainPath o.path
  inPath : ∀ p ∈ o.pathParameters,
    Wordy p.name.toList ∧ Wordy p.displayName.toList ∧ Wordy p.kind.toList
  inQuery : ∀ p ∈ o.queryParameters,
    Prose p.name.toList ∧ Prose p.displayName.toList ∧ Wordy p.kind.toList

/-- The characters of prose. -/
theorem closed_prose : Closed fun c => c ≠ '\n' ∧ c ≠ '{' :=
  (Name.closed_ne (by decide) (by decide)).and (Name.closed_ne (by decide) (by decide))

/-- The label of prose is prose. -/
theorem prose_label (h : Prose name.toList) : Prose (Name.label name).toList := by
  have hall : All (fun c => c ≠ '\n' ∧ c ≠ '{') (Name.label name).toList :=
    closed_prose.label fun c hc => ⟨ne_of_mem_of_not_mem hc h.1, ne_of_mem_of_not_mem hc h.2⟩
  exact ⟨fun hc => (hall _ hc).1 rfl, fun hc => (hall _ hc).2 rfl⟩

/-- Keys are made of word characters. -/
theorem all_sanitizeKey (key : String) : All (Name.isWordChar · = true) (sanitizeKey key).toList := by
  have hjoin : ∀ s, All (Name.isWordChar · = true) s →
      All (Name.isWordChar · = true) (joinUnderscores s) := by
    intro s hs
    induction s using joinUnderscores.induct with
    | case1 => exact hs
    | case2 c => exact hs
    | case3 c d r hcd ih =>
      -- an underscore and a small letter become a capital
      rw [joinUnderscores, if_pos hcd]
      have htail := hs.subset (t := r) fun e he => List.mem_cons_of_mem c (List.mem_cons_of_mem d he)
      refine All.append (s := [d.toUpper]) (fun e he => ?_) (ih htail)
      obtain rfl := List.mem_singleton.mp he
      have hd : Name.isLetter d = true := by simp [Name.isLetter, hcd.2]
      exact Text.ascii_induction
        (P := fun d => Name.isSmall d = true → Name.isWordChar d.toUpper = true) (by decide)
        (Name.ascii_of_isLetter hd) hcd.2
    | case4 c d r hcd ih =>
      -- the character stays
      rw [joinUnderscores, if_neg hcd]
      have htail := hs.subset (t := d :: r) fun e he => List.mem_cons_of_mem c he
      refine All.append (s := [c]) (fun e he => ?_) (ih htail)
      obtain rfl := List.mem_singleton.mp he
      exact hs e List.mem_cons_self
  have hchars : All (Name.isWordChar · = true) (identifierChars key.toList) :=
    hjoin _ fun c hc => (List.mem_filter.mp ((List.dropWhile_sublist _).mem hc)).2
  unfold sanitizeKey
  split
  · exact fun c hc => List.all_eq_true.mp (show "operation".toList.all Name.isWordChar by decide) c hc
  · rw [String.toList_ofList]
    exact hchars

/-- What is taken from an accepted candidate. -/
theorem accepted_spec {c : Candidate} (h : c.accepted? config = some e) :
    ∃ path first, c.path = .str path ∧ e.path = path ∧ e.operation = c.operation ∧
      e.method ∈ methods ∧ FirstSegment path first ∧ e.resource = Name.resource first ∧
      ∃ key, e.key = sanitizeKey key := by
  obtain ⟨path, method, hpath, -, hmethod, -, -, hat⟩ :=
    endpoint?_eq_ok_some_iff.mp (accepted?_eq_some_iff.mp h)
  obtain ⟨first, hfirst, -, -, -, rfl⟩ := endpointAt?_eq_some_iff.mp hat
  refine ⟨path, first, hpath, rfl, rfl, hmethod, firstSegment_iff.mpr hfirst, ?_⟩
  dsimp only
  exact ⟨rfl, _, rfl⟩

/-- A path with a first segment stands under the root. -/
theorem startsWith_root_of_firstSegment {path first : String} (h : FirstSegment path first) :
    Text.startsWith root path.toList = true := by
  obtain ⟨clean, query, slashes, rest, hpath, -, -, rfl, -⟩ := h
  rw [Text.startsWith_iff, hpath, List.append_assoc]
  exact List.prefix_append _ _

/-- The operations that are extracted from a plain document are plain. -/
theorem plainOperation_of_mem (hd : PlainDocument document)
    (h : extract config document = .ok resources) (hr : r ∈ resources) (ho : o ∈ r.operations) :
    PlainOperation o := by
  obtain ⟨c, hc, e, hce, -, hread, hname⟩ := origin_of_mem_operations h hr ho
  obtain ⟨path, first, hcpath, hepath, hoperation, hmethod, hfirst, -, key, hkey⟩ :=
    accepted_spec hce
  obtain ⟨-, homethod, hopath, -, -⟩ := read_spec hread
  have hplain : PlainPath o.path := by
    rw [hopath, hepath]
    exact hd.paths c hc path hcpath (startsWith_root_of_firstSegment hfirst)
  obtain ⟨hinPath, hinQuery⟩ := parameters_spec hread
  refine ⟨?_, ?_, hplain, fun p hp => ?_, fun p hp => ?_⟩
  · -- the name is a reduced key, with a number behind it where the key was taken
    refine Name.wordy_of_wordChars (Name.all_unique (fun c hc => by simp [Name.isWordChar, hc]) ?_
      hname)
    rw [hkey]
    exact all_sanitizeKey key
  · -- the method is one of the known ones
    rw [homethod]
    have hall := List.all_eq_true.mp
      (show methods.all (·.toList.all Name.isWordy) = true by decide) e.method hmethod
    exact fun c hc => List.all_eq_true.mp hall c hc
  · -- a path parameter is named in the path
    rw [hinPath] at hp
    obtain ⟨n, hn, rfl⟩ := List.mem_map.mp hp
    have hn := (plainName_of_mem_placeholderNames hplain hn).wordy
    exact ⟨hn, Name.closed_isWordy.label hn, fun c hc =>
      List.all_eq_true.mp (show "string".toList.all Name.isWordy by decide) c hc⟩
  · -- a query parameter is declared in the document
    obtain ⟨v, hv, hquery⟩ := exists_of_mem_queryParameters hinQuery hp
    obtain ⟨hparameter, hlabel, ⟨schema, hkind⟩, -⟩ := queryParameter?_spec hquery
    have hprose := hd.queries c hc v (hoperation ▸ hv) p.name hparameter
    exact ⟨hprose, hlabel ▸ prose_label hprose, hkind ▸ wordy_fieldKind schema⟩

/-! ### Resources -/

/-- The texts of a resource that stand in code. -/
structure PlainResource (r : Resource) : Prop where
  name : Wordy r.name.toList
  displayName : Wordy r.displayName.toList
  fileName : Wordy r.fileName.toList
  handlerClass : Wordy r.handlerClass.toList
  propertiesConstant : Wordy r.propertiesConstant.toList
  nonempty : r.operations ≠ []
  operations : ∀ o ∈ r.operations, PlainOperation o

/-- A resource is named by the first segment of a path of the document. -/
theorem exists_firstSegment_of_mem (h : extract config document = .ok resources)
    (hr : r ∈ resources) :
    ∃ c ∈ candidates document, ∃ path first, c.path = .str path ∧ FirstSegment path first ∧
      r.name = Name.resource first := by
  obtain ⟨o, ho⟩ := List.exists_mem_of_ne_nil _ (operations_ne_nil h hr)
  obtain ⟨c, hc, e, hce, hresource, -, -⟩ := origin_of_mem_operations h hr ho
  obtain ⟨path, first, hcpath, -, -, -, hfirst, hname, -⟩ := accepted_spec hce
  exact ⟨c, hc, path, first, hcpath, hfirst, hresource.symm.trans hname⟩

/-- The name of a resource that is extracted from a plain document is a name. -/
theorem wordy_name_of_mem (hd : PlainDocument document)
    (h : extract config document = .ok resources) (hr : r ∈ resources) : Wordy r.name.toList := by
  obtain ⟨c, hc, path, first, hcpath, hfirst, hname⟩ := exists_firstSegment_of_mem h hr
  have hplain := hd.paths c hc path hcpath (startsWith_root_of_firstSegment hfirst)
  obtain ⟨first', hhead, hfirst'⟩ := head?_segments_of_plainPath hplain
  obtain rfl : first = first' := by
    rw [firstSegment_iff.mp hfirst] at hhead
    exact Option.some.inj hhead
  rw [hname]
  exact Name.closed_isWordy.resource rfl hfirst'.wordy

/-- A file name is one name, whatever the document is. -/
theorem slash_not_mem_fileName (h : extract config document = .ok resources)
    (hr : r ∈ resources) : '/' ∉ r.fileName.toList := by
  obtain ⟨c, hc, path, first, -, hfirst, hname⟩ := exists_firstSegment_of_mem h hr
  obtain ⟨-, -, -, -, -, -, -, -, -, -, hslash, -⟩ := hfirst
  obtain ⟨xs, -, -, -, heq⟩ := exists_entries h hr
  have hclosed := Name.closed_ne (d := '/') (by decide) (by decide)
  have hall : All (· ≠ '/') (Name.hyphenatedChars r.name.toList) := by
    rw [hname]
    exact hclosed.hyphenatedChars (by decide)
      (hclosed.resource (by decide) fun c hc heq => hslash (heq ▸ hc))
  intro hmem
  rw [heq] at hmem
  simp only [resourceOf, Name.hyphenated, String.toList_ofList] at hmem
  exact hall '/' hmem rfl

/-- **The resources that are extracted from a plain document are plain.** -/
theorem plainResource_of_mem (hd : PlainDocument document)
    (h : extract config document = .ok resources) (hr : r ∈ resources) : PlainResource r := by
  have hname := wordy_name_of_mem hd h hr
  obtain ⟨xs, -, -, -, heq⟩ := exists_entries h hr
  have hoperations := fun o ho => plainOperation_of_mem hd h hr (o := o) ho
  have hnonempty := operations_ne_nil h hr
  have hsuffix (s : String) (hs : s.toList.all Name.isWordy = true) : Wordy s.toList :=
    fun c hc => List.all_eq_true.mp hs c hc
  rw [heq] at hoperations hnonempty ⊢
  refine ⟨hname, Name.closed_isWordy.label hname, ?_, ?_, ?_, hnonempty, hoperations⟩
  · simp only [resourceOf, Name.hyphenated, String.toList_ofList]
    exact Name.closed_isWordy.hyphenatedChars rfl hname
  · simp only [resourceOf, Name.handlerClass, Name.pascal, String.toList_append,
      String.toList_ofList]
    exact (Name.closed_isWordy.pascalChars hname).append (hsuffix _ (by decide))
  · simp only [resourceOf, Name.propertiesConstant, String.toList_append]
    exact hname.append (hsuffix _ (by decide))

end ApiNodes.Api
