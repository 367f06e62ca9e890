import ApiNodes.Proofs.Extraction.Naming

namespace ApiNodes.Api

open Name (isLetter wordChars)

/-!
# Verbs of operations

The key of an operation begins with a verb: the method itself, or the word that stands for it.
Reducing a key to an identifier, numbering it and naming a method after it leave the verb in front.

* `LedByVerb` — a text begins with one of the verbs;
* `ledByVerb_inferKey`, `LedByVerb.sanitizeKey` — keys do, from the method and the path on;
* `ledByVerb_of_mem` — the keys of extracted operations do;
* `LedByVerb.methodIdentifier` — and so do the names of their methods.
-/

variable {config : Config} {document : Value} {resources : List Resource} {r : Resource}
  {o : Operation} {v s t : List Char} {name method key : String} {segments : List String}

/-! ### Verbs -/

/-- The words that keys begin with. -/
def keyVerbs : List String :=
  ["get", "list", "create", "update", "delete", "post", "put", "patch"]

/-- A text begins with a verb. -/
def LedByVerb (s : List Char) : Prop := ∃ verb ∈ keyVerbs, verb.toList <+: s

/-- A text that goes on begins with the same verb. -/
theorem LedByVerb.append (h : LedByVerb s) (t : List Char) : LedByVerb (s ++ t) := by
  obtain ⟨verb, hverb, hs⟩ := h
  exact ⟨verb, hverb, hs.trans (List.prefix_append s t)⟩

/-- A verb begins with itself. -/
theorem ledByVerb_of_mem_keyVerbs (h : key ∈ keyVerbs) : LedByVerb key.toList :=
  ⟨key, h, List.prefix_refl _⟩

/-- The characters of a verb: some letters. -/
theorem letters_of_mem_keyVerbs (h : key ∈ keyVerbs) :
    key.toList ≠ [] ∧ ∀ c ∈ key.toList, isLetter c = true := by
  have hall : ∀ verb ∈ keyVerbs,
      verb.toList ≠ [] ∧ verb.toList.all (fun c => isLetter c) = true := by decide
  exact ⟨(hall key h).1, List.all_eq_true.mp (hall key h).2⟩

/-! ### Inferred keys -/

/-- **An inferred key begins with a verb.** -/
theorem ledByVerb_inferKey (h : method ∈ methods) : LedByVerb (inferKey segments method).toList := by
  have hlower : ∀ m ∈ methods, Text.lower m ∈ ["get", "post", "put", "delete", "patch"] := by
    decide +kernel
  -- whatever the shape of the path, the verb is made from the method
  have hverbs : ∀ m ∈ ["get", "post", "put", "delete", "patch"],
      m ∈ keyVerbs ∧ (if m = "get" then "list" else m) ∈ keyVerbs ∧
        ∀ b, standardKey m b ∈ keyVerbs ∧ suffixVerb m b ∈ keyVerbs := by
    decide
  obtain ⟨hself, hlist, hother⟩ := hverbs _ (hlower method h)
  unfold inferKey
  dsimp only
  split
  · exact ledByVerb_of_mem_keyVerbs hlist
  · split
    · exact ledByVerb_of_mem_keyVerbs hself
    · split
      · exact ledByVerb_of_mem_keyVerbs (hother _).1
      · rw [String.toList_append]
        exact (ledByVerb_of_mem_keyVerbs (hother _).2).append _

/-! ### Reduced keys -/

/-- Word characters of texts in a row. -/
theorem wordChars_append (hv : ∀ c ∈ v, isLetter c = true) (s : List Char) :
    wordChars (v ++ s) = v ++ wordChars s := by
  rw [wordChars, List.filter_append, List.filter_eq_self.mpr]
  · rfl
  · intro c hc
    simp [Name.isWordChar, hv c hc]

/-- A text from its first letter on, where it begins with one. -/
theorem dropWhile_append (hne : v ≠ []) (hv : ∀ c ∈ v, isLetter c = true) (s : List Char) :
    (v ++ s).dropWhile (fun c => !isLetter c) = v ++ s := by
  obtain ⟨c, v, rfl⟩ := List.exists_cons_of_ne_nil hne
  rw [List.cons_append, List.dropWhile_cons_of_neg]
  simp [hv c List.mem_cons_self]

/-- Underscores are joined behind letters. -/
theorem joinUnderscores_append (hv : ∀ c ∈ v, isLetter c = true) (s : List Char) :
    joinUnderscores (v ++ s) = v ++ joinUnderscores s := by
  induction v with
  | nil => rfl
  | cons c v ih =>
    have hc : c ≠ '_' := by
      rintro rfl
      exact absurd (hv '_' List.mem_cons_self) (by decide)
    rw [List.cons_append, joinUnderscores_cons hc, ih fun d hd => hv d (List.mem_cons_of_mem c hd)]
    rfl

/-- Placeholders are dropped behind letters. -/
theorem dropHoles_append (hv : ∀ c ∈ v, isLetter c = true) (s : List Char) :
    dropHoles (v ++ s) = v ++ dropHoles s := by
  have hopen : '{' ∉ v := by
    intro hmem
    exact absurd (hv '{' hmem) (by decide)
  rw [dropHoles, parts_append hopen, List.flatMap_append, List.flatMap_map]
  -- an ordinary character stays as it is
  exact congrArg (· ++ dropHoles s) (List.flatMap_singleton' v)

/-- **A reduced key keeps the verb.** -/
theorem LedByVerb.sanitizeKey (h : LedByVerb key.toList) :
    LedByVerb (Api.sanitizeKey key).toList := by
  obtain ⟨verb, hverb, s, hs⟩ := h
  obtain ⟨hne, hletters⟩ := letters_of_mem_keyVerbs hverb
  have hreduced : identifierChars key.toList =
      verb.toList ++ joinUnderscores (wordChars (dropHoles s)) := by
    rw [identifierChars, ← hs, dropHoles_append hletters, wordChars_append hletters,
      dropWhile_append hne hletters, joinUnderscores_append hletters]
  have hsome : identifierChars key.toList ≠ [] := by
    rw [hreduced]
    exact List.append_ne_nil_of_left_ne_nil hne _
  unfold Api.sanitizeKey
  split
  · contradiction
  · rw [String.toList_ofList, hreduced]
    exact (ledByVerb_of_mem_keyVerbs hverb).append _

/-- A name that is the key or the key with a number keeps the verb. -/
theorem LedByVerb.numbered (h : LedByVerb key.toList)
    (hname : name = key ∨ ∃ n, name = Name.numbered key n) : LedByVerb name.toList := by
  obtain rfl | ⟨n, rfl⟩ := hname
  · exact h
  · rw [Name.numbered, String.toList_append]
    exact h.append _

/-- **The key of an extracted operation begins with a verb.** -/
theorem ledByVerb_of_mem (h : extract config document = .ok resources) (hr : r ∈ resources)
    (ho : o ∈ r.operations) : LedByVerb o.name.toList := by
  obtain ⟨c, -, e, he, -, -, hname⟩ := origin_of_mem_operations h hr ho
  obtain ⟨-, -, -, -, -, hmethod, -⟩ := accepted_spec he
  have hkey : LedByVerb e.key.toList := by
    rw [key_of_accepted he]
    exact (ledByVerb_inferKey hmethod).sanitizeKey
  exact hkey.numbered hname

/-! ### Names of methods -/

/-- The method of a key has the key in front. -/
theorem prefix_method (key resource : String) :
    key.toList <+: (Name.method key resource).toList := by
  unfold Name.method
  split
  · rename_i hlist
    rw [hlist, String.toList_append]
    exact List.prefix_append _ _
  · split
    · rw [String.toList_append]
      exact List.prefix_append _ _
    · exact List.prefix_refl _

/-- **The name of a method keeps the verb of its key.** -/
theorem LedByVerb.methodIdentifier (h : LedByVerb key.toList) (resource : String) :
    LedByVerb (Name.methodIdentifier (Name.method key resource)).toList := by
  obtain ⟨verb, hverb, hkey⟩ := h
  obtain ⟨hne, hletters⟩ := letters_of_mem_keyVerbs hverb
  obtain ⟨s, hs⟩ := hkey.trans (prefix_method key resource)
  have hcleaned : (wordChars (Name.method key resource).toList).dropWhile
      (fun c => !isLetter c) = verb.toList ++ wordChars s := by
    rw [← hs, wordChars_append hletters, dropWhile_append hne hletters]
  unfold Name.methodIdentifier
  split
  · rename_i hnil
    rw [hcleaned] at hnil
    exact absurd hnil (List.append_ne_nil_of_left_ne_nil hne _)
  · rw [String.toList_ofList, hcleaned]
    exact (ledByVerb_of_mem_keyVerbs hverb).append _

/-- A name that begins with a verb is none of the members that a class has of its own. -/
theorem LedByVerb.not_own (h : LedByVerb name.toList) :
    name ≠ "executeOperation" ∧ name ≠ "constructor" := by
  obtain ⟨verb, hverb, hname⟩ := h
  have hown : ∀ verb ∈ keyVerbs, ∀ own ∈ ["executeOperation", "constructor"],
      ¬ verb.toList <+: own.toList := by
    decide
  constructor
  · rintro rfl
    exact hown verb hverb _ (by decide) hname
  · rintro rfl
    exact hown verb hverb _ (by decide) hname

end ApiNodes.Api
