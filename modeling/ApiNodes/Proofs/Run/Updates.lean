import ApiNodes.Proofs.Json.RoundTrip
import ApiNodes.Proofs.Run.Versions
import Mathlib.Data.List.Nodup

namespace ApiNodes.Run

/-!
# Updates of a version document

A version document is updated call by call.  What it tells in the end is told by the last calls
alone: of each component the record of its last call, and of the document the stamp and the source
of the last call of all (`Tells`).

* `map_fst_putKey` — a key that is there stays in its place;
* `Tells.step`, `tells_documents` — one call, and a whole history;
* `Tells.components_eq` — the order of calls for different components does not matter;
* `readsBack_of_faithful` — the documents of a history are read back from their texts if what they are
  made of is.
-/

variable {component key : String} {before : Option Entries} {es d d' : Entries} {c : Call}
  {calls calls' : List Call}

/-! ### Histories -/

/-- What is to be recorded of a component. -/
structure Update where
  component : String
  source : ApiSource
  metadata : Entries

/-- An update with the stamps that it takes: when a new document is begun, if there was none, when
    the document is changed, and when the component was generated. -/
structure Call extends Update where
  begun : String
  updated : String
  generated : String

/-- The record that a call makes of its component. -/
def Call.record (c : Call) : Value := componentRecord c.metadata c.generated

/-- The document after a call. -/
def Call.document (c : Call) (before : Option Entries) : Entries :=
  withComponent (before.getD (freshVersions c.source c.begun)) c.source c.updated c.component c.record

/-- The documents after each of the calls. -/
def documents (before : Option Entries) : List Call → List Entries
  | [] => []
  | c :: calls => c.document before :: documents (some (c.document before)) calls

/-- The keys that a document has for itself. -/
def ownKeys : List String := ["lastUpdated", "apiSource", "components"]

/-- What a document tells after calls, if it had the entries `es` before them. -/
structure Tells (es : Entries) (calls : List Call) (d : Entries) : Prop where
  /-- A component has the record of its last call, and nothing of earlier ones. -/
  named : ∀ past c later, calls = past ++ c :: later → (∀ c' ∈ later, c'.component ≠ c.component) →
    Value.atKey? c.component (componentsOf d) = some c.record
  /-- Other components are as before. -/
  unnamed : ∀ component, (∀ c ∈ calls, c.component ≠ component) →
    Value.atKey? component (componentsOf d) = Value.atKey? component (componentsOf es)
  /-- The components are a mapping. -/
  isMap : calls ≠ [] → Value.atKey? "components" d = some (.map (componentsOf d))
  /-- The source and the stamp are those of the last call. -/
  last : ∀ c ∈ calls.getLast?, Value.atKey? "apiSource" d = some c.source.toValue ∧
    Value.atKey? "lastUpdated" d = some (.str c.updated)
  /-- Other keys are as before. -/
  rest : ∀ key ∉ ownKeys, Value.atKey? key d = Value.atKey? key es
  /-- Keys that were there are in their places. -/
  keys : es.map Prod.fst <+: d.map Prod.fst
  componentKeys : (componentsOf es).map Prod.fst <+: (componentsOf d).map Prod.fst

/-! ### Keys -/

/-- **A key that is there stays in its place**, and a new one comes last. -/
theorem map_fst_putKey (k v : Value) (es : Entries) :
    es.map Prod.fst <+: (Value.putKey k v es).map Prod.fst := by
  induction es with
  | nil => exact List.nil_prefix
  | cons e es ih =>
    rw [Value.putKey]
    split
    · exact List.prefix_rfl
    · exact List.cons_prefix_cons.mpr ⟨rfl, ih⟩

/-- What is found in a document with a new record. -/
theorem atKey?_withComponent (es : Entries) (source : ApiSource) (updated component : String)
    (content : Value) :
    Value.atKey? key (withComponent es source updated component content) =
      if "components" = key then
        some (.map (Value.putKey (.str component) content (componentsOf es)))
      else if "lastUpdated" = key then some (.str updated)
      else if "apiSource" = key then some source.toValue
      else Value.atKey? key es := by
  simp only [withComponent, atKey?_putKey]

/-- Its components are those of the document, with the record. -/
theorem componentsOf_withComponent (es : Entries) (source : ApiSource) (updated component : String)
    (content : Value) :
    componentsOf (withComponent es source updated component content) =
      Value.putKey (.str component) content (componentsOf es) := by
  rw [componentsOf, atKey?_withComponent, if_pos rfl]
  rfl

/-- Keys stay in their places when a record is added. -/
theorem map_fst_withComponent (es : Entries) (source : ApiSource) (updated component : String)
    (content : Value) :
    es.map Prod.fst <+: (withComponent es source updated component content).map Prod.fst :=
  ((map_fst_putKey _ _ es).trans (map_fst_putKey _ _ _)).trans (map_fst_putKey _ _ _)

/-- A document that is begun has no components. -/
theorem componentsOf_freshVersions (source : ApiSource) (begun : String) :
    componentsOf (freshVersions source begun) = [] := by
  simp [componentsOf, freshVersions, Value.atKey?, Value.isStr, Value.entries?, Value.untied]

/-! ### Calls -/

/-- Before any call a document tells what it had, and one that is begun tells nothing. -/
theorem tells_start (before : Option Entries) (source : ApiSource) (begun : String) :
    Tells (before.getD []) [] (before.getD (freshVersions source begun)) where
  named past c later h := by simp at h
  unnamed component _ := by
    cases before with
    | some es => rfl
    | none =>
      rw [Option.getD_none, Option.getD_none, componentsOf_freshVersions]
      rfl
  isMap h := absurd rfl h
  last c hc := by cases hc
  rest key hkey := by
    cases before with
    | some es => rfl
    | none =>
      simp only [ownKeys, List.mem_cons, List.not_mem_nil, or_false, not_or] at hkey
      obtain ⟨hupdated, hsource, hcomponents⟩ := hkey
      simp [freshVersions, Value.atKey?, Value.isStr, Ne.symm hupdated, Ne.symm hsource,
        Ne.symm hcomponents]
  keys := by
    cases before with
    | some es => exact List.prefix_rfl
    | none => exact List.nil_prefix
  componentKeys := by
    cases before with
    | some es => exact List.prefix_rfl
    | none => exact List.nil_prefix

/-- **One more call** makes the record of its component, and is the last one. -/
theorem Tells.step (h : Tells es calls d) (c : Call) :
    Tells es (calls ++ [c]) (withComponent d c.source c.updated c.component c.record) where
  named past c' later heq hlater := by
    rw [componentsOf_withComponent, atKey?_putKey]
    rcases List.eq_nil_or_concat' later with rfl | ⟨init, final, rfl⟩
    · obtain ⟨-, rfl⟩ := List.append_inj' heq rfl |>.imp_right (List.head_eq_of_cons_eq ·)
      rw [if_pos rfl]
    · -- the last call is for another component
      rw [← List.cons_append, ← List.append_assoc] at heq
      obtain ⟨hcalls, hfinal⟩ := List.append_inj' heq rfl
      obtain rfl := List.head_eq_of_cons_eq hfinal
      rw [if_neg (hlater c (by simp))]
      exact h.named past c' init hcalls fun c'' hc'' => hlater c'' (List.mem_append_left _ hc'')
  unnamed component hnone := by
    rw [List.forall_mem_append, List.forall_mem_singleton] at hnone
    rw [componentsOf_withComponent, atKey?_putKey, if_neg hnone.2]
    exact h.unnamed component hnone.1
  isMap _ := by
    rw [componentsOf_withComponent, atKey?_withComponent, if_pos rfl]
  last c' hc' := by
    rw [List.getLast?_concat, Option.mem_some_iff] at hc'
    subst hc'
    simp [atKey?_withComponent]
  rest key hkey := by
    rw [← h.rest key hkey, atKey?_withComponent]
    simp only [ownKeys, List.mem_cons, List.not_mem_nil, or_false, not_or] at hkey
    rw [if_neg (Ne.symm hkey.2.2), if_neg (Ne.symm hkey.1), if_neg (Ne.symm hkey.2.1)]
  keys := h.keys.trans (map_fst_withComponent _ _ _ _ _)
  componentKeys := by
    rw [componentsOf_withComponent]
    exact h.componentKeys.trans (map_fst_putKey _ _ _)

/-- Each further call tells of one more. -/
theorem Tells.further (h : Tells es calls d) {n : Nat}
    (hn : (documents (some d) calls')[n]? = some d') :
    Tells es (calls ++ calls'.take (n + 1)) d' := by
  -- each call of the rest moves over to the calls that are told of
  induction calls' generalizing calls d n with
  | nil => simp [documents] at hn
  | cons c calls' ih =>
    have hstep : Tells es (calls ++ [c]) (c.document (some d)) := h.step c
    rw [documents] at hn
    cases n with
    | zero =>
      obtain rfl : c.document (some d) = d' := by simpa using hn
      simpa using hstep
    | succ n =>
      have hrest := ih hstep (by simpa using hn)
      rwa [List.append_assoc, List.singleton_append] at hrest

/-- **What the documents of a history tell**: each of them, what the calls up to it made of the
    entries that were there before. -/
theorem tells_documents {n : Nat} (hn : (documents before calls)[n]? = some d) :
    Tells (before.getD []) (calls.take (n + 1)) d := by
  cases calls with
  | nil => simp [documents] at hn
  | cons c calls =>
    have hfirst : Tells (before.getD []) [c] (c.document before) :=
      (tells_start before c.source c.begun).step c
    rw [documents] at hn
    cases n with
    | zero =>
      obtain rfl : c.document before = d := by simpa using hn
      simpa using hfirst
    | succ n => exact hfirst.further (by simpa using hn)

/-- There is a document for each call. -/
theorem length_documents (before : Option Entries) (calls : List Call) :
    (documents before calls).length = calls.length := by
  induction calls generalizing before with
  | nil => rfl
  | cons c calls ih => rw [documents, List.length_cons, List.length_cons, ih]

/-- The last one tells of all calls. -/
theorem tells_getLast? (h : d ∈ (documents before calls).getLast?) :
    Tells (before.getD []) calls d := by
  rw [List.getLast?_eq_getElem?, Option.mem_def, length_documents] at h
  have htells := tells_documents h
  rwa [List.take_of_length_le (by omega)] at htells

/-! ### Orders -/

/-- The component of a call with the record that is made of it. -/
def Call.entry (c : Call) : String × Value := (c.component, c.record)

/-- The only call for a component is its last one. -/
theorem Tells.record_of_mem (h : Tells es calls d) (hnodup : (calls.map (·.component)).Nodup)
    (hc : c ∈ calls) : Value.atKey? c.component (componentsOf d) = some c.record := by
  obtain ⟨past, later, rfl⟩ := List.append_of_mem hc
  refine h.named past c later rfl fun c' hc' heq => ?_
  rw [List.map_append, List.map_cons] at hnodup
  have hmem := List.mem_map_of_mem (f := fun c : Call => c.component) hc'
  rw [heq] at hmem
  exact (List.nodup_cons.mp hnodup.of_append_right).1 hmem

/-- **The order of calls for different components does not matter** to the records that they
    leave. -/
theorem Tells.components_eq (h : Tells es calls d) (h' : Tells es calls' d')
    (hperm : (calls'.map Call.entry).Perm (calls.map Call.entry))
    (hnodup : (calls.map (·.component)).Nodup) (component : String) :
    Value.atKey? component (componentsOf d') = Value.atKey? component (componentsOf d) := by
  have hcomponents {calls : List Call} :
      calls.map (·.component) = (calls.map Call.entry).map Prod.fst := by
    rw [List.map_map]
    rfl
  have hnodup' : (calls'.map (·.component)).Nodup := by
    rw [hcomponents] at hnodup ⊢
    exact (hperm.map Prod.fst).nodup_iff.mpr hnodup
  by_cases hnamed : ∃ c ∈ calls, c.component = component
  · obtain ⟨c, hc, rfl⟩ := hnamed
    obtain ⟨c', hc', hentry⟩ : ∃ c' ∈ calls', c'.entry = c.entry :=
      List.mem_map.mp (hperm.mem_iff.mpr (List.mem_map_of_mem hc))
    obtain ⟨hcomponent, hrecord⟩ := Prod.mk.inj hentry
    rw [h.record_of_mem hnodup hc, ← hcomponent, h'.record_of_mem hnodup' hc', hrecord]
  · push Not at hnamed
    have hnamed' : ∀ c ∈ calls', c.component ≠ component := by
      intro c' hc' heq
      obtain ⟨c, hc, hentry⟩ := List.mem_map.mp (hperm.mem_iff.mp (List.mem_map_of_mem hc'))
      exact hnamed c hc ((Prod.mk.inj hentry).1.trans heq)
    rw [h.unnamed component hnamed, h'.unnamed component hnamed']

/-! ### Texts of documents -/

/-- The text of a document is read as the document. -/
def ReadsBack (d : Entries) : Prop :=
  ∃ text, versionsText d = .ok text ∧ Json.read text = .ok (.map d)

section Faithful

open Json (Faithful TextKeys)

variable {room : Nat} {v : Value}

/-- A faithful value has a JSON form. -/
theorem writable_of_faithful (h : Faithful room v) : Writable v := by
  induction h with
  | null => exact writable_null
  | bool b => exact fun depth => ⟨_, rfl⟩
  | int short => exact writable_int short
  | float _ => exact fun depth => ⟨_, rfl⟩
  | str s => exact writable_str s
  | list _ ih => exact writable_list ih
  | @map _ es keys _ ih =>
    obtain ⟨names, -, hnames⟩ := keys
    refine writable_map fun e he => ⟨?_, ih e he⟩
    have hkey : e.1 ∈ names.map .str := hnames ▸ List.mem_map_of_mem he
    obtain ⟨name, -, hname⟩ := List.mem_map.mp hkey
    exact ⟨name, hname.symm⟩

/-- **A faithful document is read back** from its text. -/
theorem readsBack_of_faithful (h : Faithful Json.nestingLimit (.map d)) : ReadsBack d := by
  obtain ⟨text, htext⟩ := writable_of_faithful h 0
  refine ⟨text ++ "\n", ?_, h.read_document htext⟩
  rw [versionsText, Json.document, htext]
  rfl

/-- The components of a faithful document. -/
theorem faithful_componentsOf (h : Faithful (room + 2) (.map es)) :
    Faithful (room + 1) (.map (componentsOf es)) := by
  have hvalue : ∀ v, Value.atKey? "components" es = some v → Faithful (room + 1) v := by
    intro v hv
    cases h with
    | map _ values =>
      obtain ⟨e, he, rfl⟩ := Value.mem_of_atKey? hv
      exact values e he
  unfold componentsOf
  cases hfound : Value.atKey? "components" es with
  | none => exact Json.faithful_nil
  | some v =>
    -- a faithful value is no knot, so that it is a mapping or has no entries
    have hv := hvalue v hfound
    cases hv with
    | map keys values => exact .map keys values
    | _ => exact Json.faithful_nil

/-- The source of a document. -/
theorem faithful_source (source : ApiSource) : Faithful (room + 1) source.toValue :=
  (Json.faithful_nil.putKey (.str source.url) "url").putKey (.str source.version) "version"

/-- **A document stays faithful** when a faithful record is added, two containers below it. -/
theorem faithful_document {c : Call} (hbefore : ∀ es ∈ before, Faithful (room + 3) (.map es))
    (hmetadata : Faithful (room + 1) (.map c.metadata)) :
    Faithful (room + 3) (.map (c.document before)) := by
  have hstart : Faithful (room + 3) (.map (before.getD (freshVersions c.source c.begun))) := by
    cases before with
    | some es => exact hbefore es rfl
    | none =>
      exact ((Json.faithful_nil.putKey (.str c.begun) "lastUpdated").putKey
        (faithful_source c.source) "apiSource").putKey Json.faithful_nil "components"
  have hrecord : Faithful (room + 1) c.record :=
    hmetadata.putKey (.str c.generated) "generatedAt"
  exact ((hstart.putKey (faithful_source c.source) "apiSource").putKey
    (.str c.updated) "lastUpdated").putKey
      ((faithful_componentsOf hstart).putKey hrecord c.component) "components"

/-- **The documents of a history are read back** from their texts, if the document that was there and
    the metadata of the calls are. -/
theorem readsBack_documents (hbefore : ∀ es ∈ before, Faithful Json.nestingLimit (.map es))
    (hmetadata : ∀ c ∈ calls, Faithful (Json.nestingLimit - 2) (.map c.metadata)) :
    ∀ d ∈ documents before calls, ReadsBack d := by
  induction calls generalizing before with
  | nil => exact fun d hd => by cases hd
  | cons c calls ih =>
    rw [List.forall_mem_cons] at hmetadata
    have hdocument : Faithful Json.nestingLimit (.map (c.document before)) :=
      faithful_document hbefore hmetadata.1
    refine List.forall_mem_cons.mpr ⟨readsBack_of_faithful hdocument, ih ?_ hmetadata.2⟩
    rintro es ⟨⟩
    exact hdocument

end Faithful

end ApiNodes.Run
