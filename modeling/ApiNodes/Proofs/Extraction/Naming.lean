import ApiNodes.Proofs.Extraction.Plain
import ApiNodes.Proofs.Name.Identifier

namespace ApiNodes.Api

open Name (All LeastFree)

/-!
# Names of operations

The operations of a resource are named one after the other.  Each asks for the key that is
inferred from its path and its method, and gets it with a number behind it if an operation before
it has it already, from whatever path segment that one comes.

* `isKey_sanitizeKey`, `IsKey.unique` — keys are identifiers, and stay so with a number;
* `exists_unique_of_split` — an entry is named after those before it in the document;
* `takenIn_entries` — the names that are taken are those of the operations before it in its
  resource;
* `keys_leastFree` — the names of the operations of an extracted resource.
-/

variable {config : Config} {document : Value} {resources : List Resource} {r : Resource}
  {o : Operation} {c : Candidate} {e : Endpoint} {es : List Endpoint} {xs : List Entry}
  {x : Entry} {resource key name : String} {taken : List String}

/-! ### Keys -/

/-- A text is a key: it begins with an ASCII letter, and goes on with ASCII letters, digits and
    underscores. -/
def IsKey (s : List Char) : Prop :=
  ∃ d t, s = d :: t ∧ Name.isLetter d = true ∧ All (Name.isWordChar · = true) t

/-- What does not begin with an underscore keeps its first character. -/
theorem joinUnderscores_cons {d : Char} (hd : d ≠ '_') (s : List Char) :
    joinUnderscores (d :: s) = d :: joinUnderscores s := by
  cases s with
  | nil => rfl
  | cons d' s => rw [joinUnderscores, if_neg fun h => hd h.1]

/-- **A reduced key is a key.** -/
theorem isKey_sanitizeKey (key : String) : IsKey (sanitizeKey key).toList := by
  have hall := all_sanitizeKey key
  have hfirst : ∃ d t, (sanitizeKey key).toList = d :: t ∧ Name.isLetter d = true := by
    unfold sanitizeKey identifierChars
    -- what is left of the key begins with its first letter
    cases hs : (Name.wordChars (dropHoles key.toList)).dropWhile fun d => !Name.isLetter d with
    | nil => exact ⟨'o', "peration".toList, by decide, by decide⟩
    | cons d s =>
      have hd : Name.isLetter d = true := Name.first_of_dropWhile hs
      have hne : d ≠ '_' := by
        rintro rfl
        exact absurd hd (by decide)
      rw [joinUnderscores_cons hne]
      exact ⟨d, joinUnderscores s, String.toList_ofList, hd⟩
  obtain ⟨d, t, heq, hd⟩ := hfirst
  refine ⟨d, t, heq, hd, fun d' hd' => hall d' ?_⟩
  rw [heq]
  exact List.mem_cons_of_mem d hd'

/-- A number makes another key of a key. -/
theorem IsKey.numbered (h : IsKey key.toList) (n : Nat) : IsKey (Name.numbered key n).toList := by
  obtain ⟨d, t, heq, hd, ht⟩ := h
  refine ⟨d, t ++ (toString n).toList, ?_, hd, ht.append fun d' hd' => ?_⟩
  · rw [Name.numbered, String.toList_append, heq, List.cons_append]
  · simp [Name.isWordChar, Name.isDigit_of_mem_toString hd']

/-- The least free name behind a key is a key. -/
theorem IsKey.leastFree (h : IsKey key.toList) (hname : LeastFree key taken name) :
    IsKey name.toList := by
  cases hname with
  | base _ => exact h
  | numbered _ _ _ _ => exact h.numbered _

/-! ### Names in order -/

/-- The key that an operation asks for: what its path and its method say, reduced to an
    identifier. -/
def Operation.wantedKey (o : Operation) : String :=
  sanitizeKey (inferKey (segments o.path) o.method)

/-- The endpoint of a candidate has the key that its path and its method say. -/
theorem key_of_accepted (h : c.accepted? config = some e) :
    e.key = sanitizeKey (inferKey (segments e.path) e.method) := by
  obtain ⟨path, method, -, -, -, -, -, hat⟩ :=
    endpoint?_eq_ok_some_iff.mp (accepted?_eq_some_iff.mp h)
  obtain ⟨first, -, -, -, -, rfl⟩ := endpointAt?_eq_some_iff.mp hat
  dsimp only

/-- An operation that is read from an endpoint asks for the key of the endpoint. -/
theorem wantedKey_of_read (h : c.accepted? config = some e) (hread : e.read name = .ok o) :
    o.wantedKey = e.key := by
  obtain ⟨-, hmethod, hpath, -⟩ := read_spec hread
  rw [Operation.wantedKey, hmethod, hpath, ← key_of_accepted h]

/-- An entry is read under the unique form of the key of its endpoint, among the names that were
    given before the walk and to the entries before it. -/
theorem exists_unique_of_split {done : List (String × String)}
    (h : List.Forall₂ (fun p x => p.1.ReadUnder p.2 x) (es.zip (namesFrom done es)) xs)
    {before after : List Entry} (hxs : xs = before ++ x :: after) :
    ∃ e ∈ es, e.ReadUnder (Name.unique e.key (takenIn e.resource
      (done ++ before.map fun y => (y.resource, y.operation.name)))) x := by
  induction es generalizing done xs before with
  | nil =>
    cases h
    simp at hxs
  | cons e es ih =>
    rw [namesFrom, List.zip_cons_cons] at h
    cases h with
    | @cons _ y _ ys hread hrest =>
      cases before with
      | nil =>
        cases hxs
        exact ⟨e, List.mem_cons_self, by simpa using hread⟩
      | cons z before =>
        cases hxs
        obtain ⟨e', he', hunder⟩ := ih hrest rfl
        -- the first entry has the name that its endpoint was given
        have hy : (e.resource, Name.unique e.key (takenIn e.resource done)) =
            (y.resource, y.operation.name) := by
          rw [hread.1, (read_spec hread.2).1]
        refine ⟨e', List.mem_cons_of_mem e he', ?_⟩
        rw [hy, List.append_assoc] at hunder
        exact hunder

/-- The names that entries take in a resource are those of its operations. -/
theorem takenIn_entries (resource : String) (xs : List Entry) :
    takenIn resource (xs.map fun x => (x.resource, x.operation.name)) =
      (operationsIn xs resource).map (·.name) := by
  simp [takenIn, operationsIn, List.filter_map, Function.comp_def]

/-- Where the operations of a resource are parted, the entries are. -/
theorem exists_split_of_operationsIn {before after : List Operation}
    (h : operationsIn xs resource = before ++ o :: after) :
    ∃ earlier x later, xs = earlier ++ x :: later ∧ x.resource = resource ∧ x.operation = o ∧
      operationsIn earlier resource = before := by
  obtain ⟨ys, zs, hfilter, hbefore, hzs⟩ := List.map_eq_append_iff.mp h
  obtain ⟨x, zs', rfl, rfl, -⟩ := List.map_eq_cons_iff.mp hzs
  obtain ⟨earlier, rest, rfl, hearlier, hrest⟩ := List.filter_eq_append_iff.mp hfilter
  obtain ⟨skipped, later, rfl, hskipped, hx, -⟩ := List.filter_eq_cons_iff.mp hrest
  refine ⟨earlier ++ skipped, x, later, by simp, by simpa using hx, rfl, ?_⟩
  have hnone : skipped.filter (·.resource == resource) = [] :=
    List.filter_eq_nil_iff.mpr hskipped
  rw [operationsIn, List.filter_append, hnone, List.append_nil, hearlier, hbefore]

/-- **The names of the operations of a resource** are different identifiers.  Each is the key that
    the operation asks for, if no operation before it has that name, and else that key with the
    least number from two on that makes it different from all names before it. -/
theorem keys_leastFree (h : extract config document = .ok resources) (hr : r ∈ resources) :
    (r.operations.map (·.name)).Nodup ∧ (∀ o ∈ r.operations, IsKey o.name.toList) ∧
      ∀ before o after, r.operations = before ++ o :: after →
        LeastFree o.wantedKey (before.map (·.name)) o.name := by
  have hleast : ∀ before o after, r.operations = before ++ o :: after →
      LeastFree o.wantedKey (before.map (·.name)) o.name := by
    intro before o after hsplit
    obtain ⟨xs, hxs, -, -, heq⟩ := exists_entries h hr
    rw [operations_eq heq] at hsplit
    obtain ⟨earlier, x, later, hentries, hresource, rfl, rfl⟩ :=
      exists_split_of_operationsIn hsplit
    obtain ⟨e, he, hunder⟩ := exists_unique_of_split (forall₂_named_entries hxs) hentries
    obtain ⟨c, -, hc⟩ := List.mem_filterMap.mp he
    rw [List.nil_append, ← hunder.1, hresource, takenIn_entries] at hunder
    rw [wantedKey_of_read hc hunder.2, (read_spec hunder.2).1]
    exact Name.leastFree_unique _ _
  refine ⟨nodup_keys h hr, fun o ho => ?_, hleast⟩
  obtain ⟨before, after, hsplit⟩ := List.append_of_mem ho
  exact (isKey_sanitizeKey _).leastFree (hleast before o after hsplit)

/-- Things of a shop, under two segments that name one resource, and under names that end in the
    number two already. -/
def thingsDocument : Value :=
  let listed : Value := .object [("get", .object [])]
  .object [("paths", .object
    [("/api/v1/shops/{id}/things", listed), ("/api/v1/shops/{id}/things2", listed),
     ("/api/v1/shop/{id}/things", listed), ("/api/v1/shop/{id}/things2", listed)])]

theorem keys_leastFree_thingsDocument :
    ∃ resources, extract {} thingsDocument = .ok resources ∧ ∃ r ∈ resources,
      r.operations.map (·.name) = ["listThings", "listThings2", "listThings3", "listThings22"] ∧
      (r.operations.map (·.name)).Nodup ∧ (∀ o ∈ r.operations, IsKey o.name.toList) ∧
      ∀ before o after, r.operations = before ++ o :: after →
        LeastFree o.wantedKey (before.map (·.name)) o.name := by
  have hnames : ((extract {} thingsDocument).toOption.map fun resources =>
      resources.map fun r => r.operations.map (·.name)) =
        some [["listThings", "listThings2", "listThings3", "listThings22"]] := by
    decide +kernel
  obtain ⟨resources, h, hresources⟩ := exists_of_toOption hnames
  obtain ⟨r, hr, hkeys⟩ := List.mem_map.mp (hresources ▸ List.mem_singleton_self _)
  exact ⟨resources, h, r, hr, hkeys, keys_leastFree h hr⟩

end ApiNodes.Api
