import ApiNodes.Proofs.Extraction.Partition
import ApiNodes.Proofs.Name.Unique

namespace ApiNodes.Api

/-!
# Extracted operations

What is known of every operation of an extracted resource.

* `extract_eq_ok_iff`, `exists_entries` — an extracted resource is made of the entries under its
  name;
* `origin_of_mem_operations` — an operation is read from an endpoint of the resource, under
  the key of the endpoint or that key with a number;
* `nodup_keys` — no two operations of a resource have the same key.
-/

variable {config : Config} {document : Value} {resources : List Resource} {r : Resource}
  {o : Operation}

/-! ### Resources and their entries -/

/-- The resources of a document are grouped from its entries, if these can be read. -/
theorem extract_eq_ok_iff : extract config document = .ok resources ↔
    ∃ xs, entries config document = .ok xs ∧ grouped xs = resources := by
  rw [extract]
  cases entries config document <;> simp [bind, Except.bind, pure, Except.pure]

/-- What the names of the resources say of them, if these are found in their order. -/
theorem map_extract {α : Type} {f : Resource → α} {g : String → α}
    (hname : ∀ name operations, f (resourceOf name operations) = g name) (names : List String)
    (h : (entries config document).toOption.map
      (fun xs => (distinct (xs.map (·.resource))).filter (!isReserved ·)) = some names)
    (hsorted : names.Pairwise (· ≤ ·)) :
    (extract config document).toOption.map (·.map f) = some (names.map g) := by
  unfold extract
  cases hentries : entries config document with
  | error e => simp [hentries, Except.toOption] at h
  | ok xs =>
    rw [hentries] at h
    obtain rfl := Option.some.inj h
    show some (List.map f (grouped xs)) = _
    rw [grouped, List.mergeSort_of_pairwise (hsorted.imp fun h => decide_eq_true h), List.map_map]
    exact congrArg some (List.map_congr_left fun name _ => hname name _)

/-- An extracted resource is made of the entries under its name, of which there are some. -/
theorem exists_entries (h : extract config document = .ok resources) (hr : r ∈ resources) :
    ∃ xs, entries config document = .ok xs ∧ r.name ∈ xs.map (·.resource) ∧
      isReserved r.name = false ∧ r = resourceOf r.name (operationsIn xs r.name) := by
  obtain ⟨xs, hxs, rfl⟩ := extract_eq_ok_iff.mp h
  obtain ⟨name, hname, hfree, rfl⟩ := mem_grouped_iff.mp hr
  exact ⟨xs, hxs, hname, hfree, rfl⟩

/-- The operations of a resource are those of its entries. -/
theorem operations_eq {xs : List Entry} (h : r = resourceOf r.name (operationsIn xs r.name)) :
    r.operations = operationsIn xs r.name := by
  rw [h]
  rfl

/-- An extracted resource has operations. -/
theorem operations_ne_nil (h : extract config document = .ok resources) (hr : r ∈ resources) :
    r.operations ≠ [] := by
  obtain ⟨xs, -, hname, -, heq⟩ := exists_entries h hr
  obtain ⟨x, hx, hxr⟩ := List.mem_map.mp hname
  rw [operations_eq heq]
  refine List.ne_nil_of_mem (a := x.operation) (List.mem_map.mpr ⟨x, ?_, rfl⟩)
  rw [List.mem_filter]
  exact ⟨hx, by simpa using hxr⟩

/-! ### Keys -/

/-- Each name is the key of its endpoint, or that key with a number. -/
theorem forall₂_namesFrom (done : List (String × String)) (es : List Endpoint) :
    List.Forall₂ (fun e name => name = e.key ∨ ∃ n, name = Name.numbered e.key n) es
      (namesFrom done es) := by
  induction es generalizing done with
  | nil => exact .nil
  | cons e es ih => exact .cons (Name.unique_eq e.key (takenIn e.resource done)) (ih _)

/-- The names taken within a resource are those under it. -/
theorem mem_takenIn {resource name : String} {done : List (String × String)} :
    name ∈ takenIn resource done ↔ (resource, name) ∈ done := by
  simp [takenIn]

/-- No name is given twice within a resource, nor one that is taken. -/
theorem nodup_zip_namesFrom (done : List (String × String)) (es : List Endpoint) :
    ((es.map (·.resource)).zip (namesFrom done es)).Nodup ∧
      ∀ p ∈ (es.map (·.resource)).zip (namesFrom done es), p ∉ done := by
  induction es generalizing done with
  | nil => simp [namesFrom]
  | cons e es ih =>
    have hfree : (e.resource, Name.unique e.key (takenIn e.resource done)) ∉ done := fun h =>
      Name.unique_not_mem e.key (takenIn e.resource done) (mem_takenIn.mpr h)
    obtain ⟨hnodup, hnot⟩ :=
      ih (done ++ [(e.resource, Name.unique e.key (takenIn e.resource done))])
    rw [namesFrom, List.map_cons, List.zip_cons_cons]
    refine ⟨List.nodup_cons.mpr ⟨fun h => ?_, hnodup⟩, fun p hp => ?_⟩
    · exact hnot _ h (List.mem_append_right done List.mem_cons_self)
    · rcases List.mem_cons.mp hp with rfl | hp
      · exact hfree
      · exact fun h => hnot p hp (List.mem_append_left _ h)

/-- Entries have the names that their endpoints are given. -/
theorem map_entries {xs : List Entry} (h : entries config document = .ok xs) :
    xs.map (fun x => (x.resource, x.operation.name)) =
      ((acceptedEndpoints config document).map (·.resource)).zip
        (namesOf (acceptedEndpoints config document)) := by
  have hread := forall₂_named_entries h
  have hlength := length_namesFrom [] (acceptedEndpoints config document)
  clear h
  rw [namesOf] at hread ⊢
  generalize acceptedEndpoints config document = es at hread hlength
  generalize namesFrom [] es = names at hread hlength
  induction es generalizing xs names with
  | nil =>
    cases hread
    rfl
  | cons e es ih =>
    cases names with
    | nil => simp at hlength
    | cons name names =>
      cases hread with
      | cons hx hread =>
        rw [List.map_cons, List.map_cons, List.zip_cons_cons, hx.1, (read_spec hx.2).1,
          ih names hread (by simpa using hlength)]

/-- **No two operations of a resource have the same key.** -/
theorem nodup_keys (h : extract config document = .ok resources) (hr : r ∈ resources) :
    (r.operations.map (·.name)).Nodup := by
  obtain ⟨xs, hxs, -, -, heq⟩ := exists_entries h hr
  have hnodup := (nodup_zip_namesFrom [] (acceptedEndpoints config document)).1
  rw [← namesOf, ← map_entries hxs] at hnodup
  have hsub : (((xs.filter (·.resource == r.name)).map fun x => (x.resource, x.operation.name))).Nodup :=
    hnodup.sublist (List.filter_sublist.map _)
  have hpairs : ((xs.filter (·.resource == r.name)).map fun x => (x.resource, x.operation.name)) =
      (r.operations.map (·.name)).map fun name => (r.name, name) := by
    rw [operations_eq heq, operationsIn, List.map_map, List.map_map]
    refine List.map_congr_left fun x hx => ?_
    have hxr : x.resource = r.name := by simpa using (List.mem_filter.mp hx).2
    simp [hxr]
  rw [hpairs] at hsub
  exact hsub.of_map

/-! ### Origins -/

/-- An item on the right is related to one on the left. -/
private theorem exists_of_mem_forall₂ {α β : Type} {R : α → β → Prop} {xs : List α} {ys : List β}
    (h : List.Forall₂ R xs ys) {y : β} (hy : y ∈ ys) : ∃ x ∈ xs, R x y := by
  induction h with
  | nil => cases hy
  | cons hxy _ ih =>
    rcases List.mem_cons.mp hy with rfl | hy
    · exact ⟨_, List.mem_cons_self, hxy⟩
    · obtain ⟨x, hx, hxy⟩ := ih hy
      exact ⟨x, List.mem_cons_of_mem _ hx, hxy⟩

/-- An operation of an extracted resource is read from an accepted candidate, under the key
    of its endpoint or that key with a number. -/
theorem origin_of_mem_operations (h : extract config document = .ok resources) (hr : r ∈ resources)
    (ho : o ∈ r.operations) :
    ∃ c ∈ candidates document, ∃ e, c.accepted? config = some e ∧ e.resource = r.name ∧
      e.read o.name = .ok o ∧ (o.name = e.key ∨ ∃ n, o.name = Name.numbered e.key n) := by
  obtain ⟨xs, hxs, -, -, heq⟩ := exists_entries h hr
  rw [operations_eq heq] at ho
  obtain ⟨x, hx, rfl⟩ := List.mem_map.mp ho
  obtain ⟨hx, hxr⟩ := List.mem_filter.mp hx
  obtain ⟨⟨e, name⟩, hmem, hread⟩ := exists_of_mem_forall₂ (forall₂_named_entries hxs) hx
  obtain ⟨c, hc, hce⟩ := List.mem_filterMap.mp (List.of_mem_zip hmem).1
  have hname : x.operation.name = name := (read_spec hread.2).1
  refine ⟨c, hc, e, hce, hread.1.symm.trans (by simpa using hxr), hname ▸ hread.2, ?_⟩
  rw [hname]
  exact List.forall₂_iff_zip.mp (forall₂_namesFrom [] _) |>.2 hmem

end ApiNodes.Api
