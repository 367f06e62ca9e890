import ApiNodes.Artifact.Properties
import Mathlib.Data.List.Nodup

namespace ApiNodes.Artifact

open Api (Operation Parameter Resource)

/-!
# Path fields: lemmas

The path fields of a resource collect the uses of path parameters by its operations.
`Collects` says what fields make of a row of uses.  What one more use makes of them
(`cases_of_mem_addPathUse`) keeps each part of it (`Collects.addPathUse`), so that it holds of all
uses of a resource (`collects_pathFields`).
-/

variable {r : Resource} {f : PathField} {fields : List PathField} {p : Parameter} {key : String}
  {uses : List (String × Parameter)}

/-! ### Uses -/

/-- The uses of path parameters by operations: the keys of the operations, and the
    parameters. -/
def pathUses (operations : List Operation) : List (String × Parameter) :=
  operations.flatMap fun o => o.pathParameters.map fun p => (o.name, p)

/-- An operation uses a parameter that is in its path. -/
theorem mem_pathUses {operations : List Operation} :
    (key, p) ∈ pathUses operations ↔ ∃ o ∈ operations, o.name = key ∧ p ∈ o.pathParameters := by
  simp only [pathUses, List.mem_flatMap, List.mem_map, Prod.mk.injEq]
  constructor
  · rintro ⟨o, ho, p, hp, rfl, rfl⟩
    exact ⟨o, ho, rfl, hp⟩
  · rintro ⟨o, ho, rfl, hp⟩
    exact ⟨o, ho, p, hp, rfl, rfl⟩

/-- The path fields note the uses one after the other. -/
theorem pathFields_eq (r : Resource) :
    pathFields r =
      (pathUses r.operations).foldl (fun fields u => addPathUse u.1 u.2 fields) [] := by
  rw [pathFields, pathUses, List.foldl_flatMap]
  simp only [List.foldl_map]

/-! ### What fields collect -/

/-- The fields of a row of uses: one for every name, made from a parameter that is used, with
    the keys of the operations that use a parameter of the name. -/
structure Collects (uses : List (String × Parameter)) (fields : List PathField) : Prop where
  nodup : (fields.map (·.parameter.name)).Nodup
  used : ∀ f ∈ fields, ∃ key, (key, f.parameter) ∈ uses
  operations : ∀ f ∈ fields, ∀ key,
    key ∈ f.operations ↔ ∃ p, (key, p) ∈ uses ∧ p.name = f.parameter.name
  complete : ∀ key p, (key, p) ∈ uses → ∃ f ∈ fields, f.parameter.name = p.name

/-- One more operation is one of the operations of a field. -/
theorem mem_operations_usedBy {k : String} :
    k ∈ (f.usedBy key).operations ↔ k ∈ f.operations ∨ k = key := by
  unfold PathField.usedBy
  split
  · rename_i hkey
    exact ⟨.inl, fun h => h.elim id fun h => h ▸ hkey⟩
  · simp

/-- A field keeps its parameter. -/
theorem parameter_usedBy (f : PathField) (key : String) :
    (f.usedBy key).parameter = f.parameter := by
  unfold PathField.usedBy
  split <;> rfl

/-! ### One more use -/

/-- After a use there is a field of its name, and of the names before. -/
theorem mem_names_addPathUse {name : String} :
    name ∈ (addPathUse key p fields).map (·.parameter.name) ↔
      name ∈ fields.map (·.parameter.name) ∨ name = p.name := by
  induction fields with
  | nil => simp [addPathUse]
  | cons g fields ih =>
    rw [addPathUse]
    split
    · rename_i hg
      rw [List.map_cons, List.map_cons, parameter_usedBy, List.mem_cons, hg]
      exact ⟨.inl, fun h => h.elim id .inl⟩
    · rw [List.map_cons, List.map_cons, List.mem_cons, List.mem_cons, ih, or_assoc]

/-- No name has two fields. -/
theorem nodup_names_addPathUse (h : (fields.map (·.parameter.name)).Nodup) :
    ((addPathUse key p fields).map (·.parameter.name)).Nodup := by
  induction fields with
  | nil => exact List.nodup_singleton _
  | cons g fields ih =>
    obtain ⟨hg, hfields⟩ := List.nodup_cons.mp h
    rw [addPathUse]
    split
    · rwa [List.map_cons, parameter_usedBy]
    · rename_i hname
      refine List.nodup_cons.mpr ⟨fun hmem => ?_, ih hfields⟩
      exact (mem_names_addPathUse.mp hmem).elim hg hname

/-- A field after a use is one of another name, the field of the name where the use is noted, or
    a new field, if the name had none. -/
theorem cases_of_mem_addPathUse (h : (fields.map (·.parameter.name)).Nodup)
    (hf : f ∈ addPathUse key p fields) :
    (f ∈ fields ∧ f.parameter.name ≠ p.name) ∨
      (∃ g ∈ fields, g.parameter.name = p.name ∧ f = g.usedBy key) ∨
        (p.name ∉ fields.map (·.parameter.name) ∧ f = ⟨p, [key]⟩) := by
  induction fields with
  | nil => exact .inr (.inr ⟨List.not_mem_nil, List.mem_singleton.mp hf⟩)
  | cons g fields ih =>
    obtain ⟨hg, hfields⟩ := List.nodup_cons.mp h
    rw [addPathUse] at hf
    split at hf
    · rename_i hname
      rcases List.mem_cons.mp hf with rfl | hf
      · exact .inr (.inl ⟨g, List.mem_cons_self, hname, rfl⟩)
      · refine .inl ⟨List.mem_cons_of_mem _ hf, fun heq => hg ?_⟩
        exact List.mem_map.mpr ⟨f, hf, heq.trans hname.symm⟩
    · rename_i hname
      rcases List.mem_cons.mp hf with rfl | hf
      · exact .inl ⟨List.mem_cons_self, hname⟩
      · rcases ih hfields hf with ⟨hf, hother⟩ | ⟨g', hg', hnoted⟩ | ⟨hnew, rfl⟩
        · exact .inl ⟨List.mem_cons_of_mem _ hf, hother⟩
        · exact .inr (.inl ⟨g', List.mem_cons_of_mem _ hg', hnoted⟩)
        · refine .inr (.inr ⟨fun hmem => ?_, rfl⟩)
          exact (List.mem_cons.mp hmem).elim (fun heq => hname heq.symm) hnew

/-- The uses of a name by an operation, with one more use. -/
theorem exists_use_concat {k name : String} :
    (∃ q, (k, q) ∈ uses ++ [(key, p)] ∧ q.name = name) ↔
      (∃ q, (k, q) ∈ uses ∧ q.name = name) ∨ (k = key ∧ p.name = name) := by
  simp only [List.mem_append, List.mem_singleton, Prod.mk.injEq, or_and_right, exists_or, and_assoc,
    exists_and_left, exists_eq_left]

/-- Every field is made from a parameter that is used. -/
theorem Collects.used_addPathUse (h : Collects uses fields) (hf : f ∈ addPathUse key p fields) :
    ∃ k, (k, f.parameter) ∈ uses ++ [(key, p)] := by
  have hold (hf : f ∈ fields) : ∃ k, (k, f.parameter) ∈ uses ++ [(key, p)] := by
    obtain ⟨k, hk⟩ := h.used f hf
    exact ⟨k, List.mem_append_left _ hk⟩
  rcases cases_of_mem_addPathUse h.nodup hf with ⟨hf, -⟩ | ⟨g, hg, -, rfl⟩ | ⟨-, rfl⟩
  · exact hold hf
  · obtain ⟨k, hk⟩ := h.used g hg
    exact ⟨k, parameter_usedBy g key ▸ List.mem_append_left _ hk⟩
  · exact ⟨key, List.mem_append_right _ List.mem_cons_self⟩

/-- Every field has the operations that use a parameter of its name. -/
theorem Collects.operations_addPathUse (h : Collects uses fields)
    (hf : f ∈ addPathUse key p fields) (k : String) :
    k ∈ f.operations ↔ ∃ q, (k, q) ∈ uses ++ [(key, p)] ∧ q.name = f.parameter.name := by
  rw [exists_use_concat]
  rcases cases_of_mem_addPathUse h.nodup hf with ⟨hf, hother⟩ | ⟨g, hg, hname, rfl⟩ | ⟨hnew, rfl⟩
  · rw [h.operations f hf, or_iff_left fun hk => hother hk.2.symm]
  · rw [mem_operations_usedBy, parameter_usedBy, h.operations g hg, and_iff_left hname.symm]
  · -- no use of the name came before, or the name would have a field
    have hunused : ¬∃ q, (k, q) ∈ uses ∧ q.name = p.name := by
      rintro ⟨q, hq, hname⟩
      obtain ⟨g, hg, hgq⟩ := h.complete k q hq
      exact hnew (hname ▸ hgq ▸ List.mem_map_of_mem hg)
    rw [List.mem_singleton, or_iff_right hunused, and_iff_left rfl]

/-- Every use has a field of its name. -/
theorem Collects.complete_addPathUse (h : Collects uses fields) {k : String} {q : Parameter}
    (hq : (k, q) ∈ uses ++ [(key, p)]) :
    ∃ f ∈ addPathUse key p fields, f.parameter.name = q.name := by
  rw [← List.mem_map, mem_names_addPathUse]
  rcases List.mem_append.mp hq with hq | hq
  · exact .inl (List.mem_map.mpr (h.complete k q hq))
  · cases List.mem_singleton.mp hq
    exact .inr rfl

/-- **One more use** is collected. -/
theorem Collects.addPathUse (h : Collects uses fields) (key : String) (p : Parameter) :
    Collects (uses ++ [(key, p)]) (addPathUse key p fields) where
  nodup := nodup_names_addPathUse h.nodup
  used _ hf := h.used_addPathUse hf
  operations _ hf := h.operations_addPathUse hf
  complete _ _ hq := h.complete_addPathUse hq

/-! ### All uses -/

/-- **The path fields of a resource collect all uses** of path parameters. -/
theorem collects_pathFields (r : Resource) : Collects (pathUses r.operations) (pathFields r) := by
  have key : ∀ (uses done : List (String × Parameter)) (fields : List PathField),
      Collects done fields →
        Collects (done ++ uses)
          (uses.foldl (fun fields u => Artifact.addPathUse u.1 u.2 fields) fields) := by
    intro uses
    induction uses with
    | nil =>
      intro done fields h
      simpa using h
    | cons u uses ih =>
      intro done fields h
      rw [List.append_cons, List.foldl_cons]
      exact ih _ _ (h.addPathUse u.1 u.2)
  rw [pathFields_eq]
  refine key (pathUses r.operations) [] [] ⟨List.nodup_nil, ?_, ?_, ?_⟩
  · exact fun f hf => by cases hf
  · exact fun f hf => by cases hf
  · exact fun k p hp => by cases hp

end ApiNodes.Artifact
