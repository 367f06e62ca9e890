import ApiNodes.Artifact.Properties
import ApiNodes.Proofs.Extraction.Distinct
import ApiNodes.Proofs.Text.LabelOrder

namespace ApiNodes.Artifact

open Api (Operation Parameter distinct)

/-!
# The additional fields in order

The additional fields of list operations are collected in the order in which they are declared,
the first of each name, and then sorted by their labels.

* `names_collected`, `mem_collected_iff` — which fields are collected, and in which order;
* `FirstDeclared` — the field of a name is that of its first declaration;
* `ComesBefore` — the order of labels, and of declaration where labels are the same;
* `additionalFields_ordered` — the fields that the file of a resource declares.
-/

variable {listing : List Operation} {fs : List AdditionalField} {f g : AdditionalField}
  {name : String}

/-! ### Collecting -/

/-- The names of the fields that are collected are distinct, and in order of first appearance. -/
theorem names_collected (fs : List AdditionalField) :
    (fs.foldl addField []).map (·.name) = distinct (fs.map (·.name)) := by
  induction fs using List.reverseRecOn with
  | nil => rfl
  | append_singleton fs f ih =>
    rw [List.foldl_append, List.foldl_cons, List.foldl_nil, List.map_append, List.map_singleton,
      Api.distinct_concat, ← ih, addField]
    split_ifs with hmem
    · rfl
    · rw [List.map_append, List.map_singleton]

/-- A field is collected if it is the first of its name. -/
theorem mem_collected_iff :
    f ∈ fs.foldl addField [] ↔ fs.find? (·.name == f.name) = some f := by
  induction fs using List.reverseRecOn with
  | nil => simp
  | append_singleton fs g ih =>
    have hname : g.name ∈ (fs.foldl addField []).map (·.name) ↔ g.name ∈ fs.map (·.name) := by
      rw [names_collected, (Api.distinct_spec _).2]
    rw [List.foldl_append, List.foldl_cons, List.foldl_nil, addField, List.find?_append]
    split_ifs with hmem <;> rw [hname] at hmem
    · -- a field whose name is there already is not looked at
      rw [ih]
      cases hfind : fs.find? (·.name == f.name) with
      | some f' => simp
      | none =>
        have hne : g.name ≠ f.name := by
          intro heq
          obtain ⟨f', hf', hsame⟩ := List.mem_map.mp hmem
          exact List.find?_eq_none.mp hfind f' hf' (by simpa using hsame.trans heq)
        simp [hne]
    · rw [List.mem_append, ih, List.mem_singleton]
      cases hfind : fs.find? (·.name == f.name) with
      | some f' =>
        -- a field of another name is added, and the first of this name stays
        have hne : f ≠ g := by
          rintro rfl
          have hf' := List.find?_some hfind
          exact hmem (List.mem_map.mpr ⟨f', List.mem_of_find?_eq_some hfind, by simpa using hf'⟩)
        simp [hne]
      | none =>
        rw [Option.none_or, List.find?_singleton]
        constructor
        · rintro (hf | rfl)
          · cases hf
          · simp
        · intro h
          split_ifs at h
          exact .inr (Option.some.inj h).symm

/-! ### Declarations -/

/-- The query parameters that operations declare, one operation after the other. -/
def declaredQueries (listing : List Operation) : List Parameter :=
  listing.flatMap (·.queryParameters)

/-- The names of fields in the order in which they are declared: those of the query parameters,
    and behind them those of paging. -/
def declaredNames (listing : List Operation) : List String :=
  (declaredQueries listing).map (·.name) ++ ["pageNumber", "pageSize"]

/-- A field is that of the first declaration of its name: of the first query parameter that has the
    name or, where none has it, one of those of paging. -/
inductive FirstDeclared (listing : List Operation) : AdditionalField → Prop
  | declared {before after : List Parameter} {p : Parameter}
      (hsplit : declaredQueries listing = before ++ p :: after)
      (hfirst : ∀ q ∈ before, q.name ≠ p.name) : FirstDeclared listing (.ofParameter p)
  | paging {f : AdditionalField} (hmem : f ∈ paging)
      (hnone : ∀ q ∈ declaredQueries listing, q.name ≠ f.name) : FirstDeclared listing f

/-- A field comes before another: its label does or, where the labels are the same, the first
    declaration of its name. -/
def ComesBefore (listing : List Operation) (f g : AdditionalField) : Prop :=
  Text.LabelBefore f.displayName g.displayName ∨
    f.displayName = g.displayName ∧
      (declaredNames listing).idxOf f.name < (declaredNames listing).idxOf g.name

/-- What is collected for operations, before it is sorted. -/
def collected (listing : List Operation) : List AdditionalField :=
  ((declaredQueries listing).map AdditionalField.ofParameter ++ paging).foldl addField []

/-- The additional fields are what is collected, in the order of the labels. -/
theorem additionalFields_eq (listing : List Operation) :
    additionalFields listing = Text.inLabelOrder (·.displayName) (collected listing) := by
  rw [additionalFields, collected, declaredQueries, List.map_flatMap]

/-- The names of what is collected are the declared ones, each once. -/
theorem names_of_collected (listing : List Operation) :
    (collected listing).map (·.name) = distinct (declaredNames listing) := by
  rw [collected, names_collected, List.map_append, List.map_map]
  rfl

/-- What is collected is the field of a first declaration. -/
theorem firstDeclared_of_mem (h : f ∈ collected listing) : FirstDeclared listing f := by
  rw [collected, mem_collected_iff, List.find?_append, List.find?_map] at h
  cases hfind : (declaredQueries listing).find?
      ((fun g : AdditionalField => g.name == f.name) ∘ AdditionalField.ofParameter) with
  | some p =>
    rw [hfind] at h
    cases h
    obtain ⟨-, before, after, hsplit, hbefore⟩ := List.find?_eq_some_iff_append.mp hfind
    exact .declared hsplit fun q hq => by simpa [AdditionalField.ofParameter] using hbefore q hq
  | none =>
    rw [hfind, Option.map_none, Option.none_or] at h
    refine .paging (List.mem_of_find?_eq_some h) fun q hq => ?_
    simpa [AdditionalField.ofParameter] using List.find?_eq_none.mp hfind q hq

/-! ### Order -/

/-- **The additional fields of list operations.**  No name is there twice.  The names are those of
    the query parameters of the operations and the two of paging, and each stands for the field of
    its first declaration.  The fields are sorted by their labels, and those with one label are in
    the order in which their names are first declared. -/
theorem additionalFields_ordered (listing : List Operation) :
    ((additionalFields listing).map (·.name)).Nodup ∧
    (∀ name, name ∈ (additionalFields listing).map (·.name) ↔
      (∃ o ∈ listing, ∃ p ∈ o.queryParameters, p.name = name) ∨
        name = "pageNumber" ∨ name = "pageSize") ∧
    (∀ f ∈ additionalFields listing, FirstDeclared listing f) ∧
    (additionalFields listing).Pairwise (ComesBefore listing) := by
  have hperm : (additionalFields listing).Perm (collected listing) := by
    rw [additionalFields_eq]
    exact Text.inLabelOrder_perm _ _
  obtain ⟨hnodup, hmem, horder⟩ := Api.firstUses_distinct (declaredNames listing)
  rw [← names_of_collected] at hnodup hmem horder
  refine ⟨(hperm.map _).nodup_iff.mpr hnodup, fun name => ?_,
    fun f hf => firstDeclared_of_mem (hperm.mem_iff.mp hf), ?_⟩
  · rw [(hperm.map _).mem_iff, hmem, declaredNames, List.mem_append, List.mem_pair]
    refine or_congr_left ?_
    simp only [declaredQueries, List.mem_map, List.mem_flatMap]
    constructor
    · rintro ⟨p, ⟨o, ho, hp⟩, hname⟩
      exact ⟨o, ho, p, hp, hname⟩
    · rintro ⟨o, ho, p, hp, hname⟩
      exact ⟨p, ⟨o, ho, hp⟩, hname⟩
  · rw [additionalFields_eq]
    refine (Text.pairwise_inLabelOrder _ _).imp fun {f g} h => h.imp_right fun ⟨hlabel, hsub⟩ => ?_
    -- of two fields with one label the first is the one that was collected first
    exact ⟨hlabel, List.pairwise_iff_forall_sublist.mp horder (hsub.map _)⟩

end ApiNodes.Artifact
