import ApiNodes.Proofs.Name.Identifier
import ApiNodes.Proofs.Typescript.Locals

namespace ApiNodes.Typescript

open Name (IsIdentifier numbered)

/-!
# Names of local constants

A placeholder may have any name.  Its constant has the identifier of the name, with a suffix where
that means something else, and with a number where it is taken.  None of these steps leads back to
what an earlier one led away from: no word with a meaning ends as the suffix does, or in a digit.

* `isIdentifier_identifier`, `wantedLocal_free` — what is wanted for a name is an identifier, and
  free;
* `isIdentifier_ident`, `ident_not_mem_reservedWords` — and so are the constants;
* `pathVariables_sound` — the constants of a list of names;
* `exists_ident_iff` — a constant has an identifier that is free where a name has it.
-/

variable {name ident : String} {names : List String} {v : PathVariable}

/-! ### What is wanted -/

/-- The identifier of a name is one. -/
theorem isIdentifier_identifier (name : String) : IsIdentifier (identifier name).toList := by
  have hall := all_identifier name
  have hfirst : ∃ c t, (identifier name).toList = c :: t ∧
      (Name.isLetter c || c == '_') = true := by
    unfold identifier
    dsimp only
    split
    · exact ⟨'v', "alue".toList, by decide, by decide⟩
    · -- what is left begins with the first character that can begin an identifier
      rename_i hne
      obtain ⟨c, t, heq⟩ := List.exists_cons_of_ne_nil hne
      exact ⟨c, t, by rw [String.toList_ofList, heq], Name.first_of_dropWhile heq⟩
  obtain ⟨c, t, heq, hc⟩ := hfirst
  refine ⟨c, t, heq, by simpa using hc, ?_⟩
  intro d hd
  apply hall
  rw [heq]
  exact List.mem_cons_of_mem c hd

/-- What is wanted for a name is an identifier. -/
theorem isIdentifier_wantedLocal (name : String) : IsIdentifier (wantedLocal name).toList := by
  unfold wantedLocal
  dsimp only
  split
  · rw [String.toList_append]
    apply (isIdentifier_identifier name).append
    intro c hc
    exact List.all_eq_true.mp (show "Param".toList.all Name.isWordChar = true by decide) c hc
  · exact isIdentifier_identifier name

/-- No word with a meaning ends as the suffix does. -/
theorem not_param_suffix {w : String} (h : w ∈ reservedWords ∨ w ∈ handlerLocals) :
    ¬ "Param".toList <:+ w.toList := by
  have hnone : ∀ w ∈ reservedWords ++ handlerLocals, ¬ "Param".toList <:+ w.toList := by decide
  exact hnone w (List.mem_append.mpr h)

/-- No word with a meaning ends in a digit. -/
theorem not_digit_of_getLast? {w : String} (h : w ∈ reservedWords ∨ w ∈ handlerLocals) {c : Char}
    (hc : w.toList.getLast? = some c) : Name.isDigit c = false := by
  have hnone : ∀ w ∈ reservedWords ++ handlerLocals,
      w.toList.getLast?.all (fun c => !Name.isDigit c) = true := by decide
  have hw := hnone w (List.mem_append.mpr h)
  rw [hc] at hw
  simpa using hw

/-- **What is wanted for a name has no other meaning.** -/
theorem wantedLocal_free (name : String) :
    ¬ (wantedLocal name ∈ reservedWords ∨ wantedLocal name ∈ handlerLocals) := by
  unfold wantedLocal
  dsimp only
  split
  · intro hmem
    apply not_param_suffix hmem
    rw [String.toList_append]
    exact List.suffix_append _ _
  · assumption

/-! ### Constants -/

/-- A number makes another name of any word that does not end in a digit. -/
theorem numbered_ne_of_getLast? {base w : String} {n : Nat}
    (h : ∀ c, w.toList.getLast? = some c → Name.isDigit c = false) : numbered base n ≠ w := by
  rintro rfl
  obtain ⟨c, hc, hdigit⟩ := Name.getLast?_numbered base n
  rw [h c hc] at hdigit
  cases hdigit

/-- The constants of names are identifiers. -/
theorem isIdentifier_ident (hv : v ∈ pathVariables names) : IsIdentifier v.ident.toList := by
  obtain ⟨n, -, hident | ⟨k, hident⟩⟩ := exists_wantedLocal_of_mem hv
  · rw [hident]
    exact isIdentifier_wantedLocal n
  · rw [hident, numbered, String.toList_append]
    apply (isIdentifier_wantedLocal n).append
    intro c hc
    simp [Name.isWordChar, Name.isDigit_of_mem_toString hc]

/-- The constants of names are none of the names that a handler method declares itself. -/
theorem ident_not_mem_handlerLocals (hv : v ∈ pathVariables names) : v.ident ∉ handlerLocals := by
  have hgiven : v.ident ∈ Name.uniqueAll handlerLocals (names.map wantedLocal) := by
    rw [← (map_pathVariables names).2]
    exact List.mem_map_of_mem hv
  exact Name.not_mem_of_mem_uniqueAll hgiven

/-- The constants of names are none of the reserved words. -/
theorem ident_not_mem_reservedWords (hv : v ∈ pathVariables names) : v.ident ∉ reservedWords := by
  intro hmem
  obtain ⟨n, -, hident | ⟨k, hident⟩⟩ := exists_wantedLocal_of_mem hv
  · rw [hident] at hmem
    exact wantedLocal_free n (.inl hmem)
  · have hlast : ∀ c, v.ident.toList.getLast? = some c → Name.isDigit c = false := by
      intro c hc
      exact not_digit_of_getLast? (.inl hmem) hc
    exact numbered_ne_of_getLast? hlast hident.symm

/-- **The constants of names.**  Every list of names, repeated ones and such as differ only in
    characters that are dropped included, gets one constant for each name, in order.  The constants
    are all different, each is an identifier, and none is a name that the handler method declares
    itself or a reserved word. -/
theorem pathVariables_sound (names : List String) :
    (pathVariables names).map (·.name) = names ∧
      ((pathVariables names).map (·.ident)).Nodup ∧
      ∀ v ∈ pathVariables names,
        IsIdentifier v.ident.toList ∧ v.ident ∉ handlerLocals ∧ v.ident ∉ reservedWords := by
  refine ⟨(map_pathVariables names).1, ?_, ?_⟩
  · rw [(map_pathVariables names).2]
    exact Name.nodup_uniqueAll _ _
  · intro v hv
    exact ⟨isIdentifier_ident hv, ident_not_mem_handlerLocals hv, ident_not_mem_reservedWords hv⟩

/-- Names that meet again at every step: when characters are dropped, when a suffix is added, and
    when a number is. -/
def meetingNames : List String :=
  ["body", "bodyParam", "class", "1st", "part-id", "partId", "part_id", "id2", "id", "id", "\xe9",
   "value"]

theorem pathVariables_sound_meetingNames :
    (pathVariables meetingNames).map (·.ident) =
        ["bodyParam", "bodyParam2", "classParam", "st", "partId", "partId2", "partId3", "id2", "id",
         "id3", "value", "value2"] ∧
      (pathVariables meetingNames).map (·.name) = meetingNames ∧
      ((pathVariables meetingNames).map (·.ident)).Nodup ∧
      ∀ v ∈ pathVariables meetingNames,
        IsIdentifier v.ident.toList ∧ v.ident ∉ handlerLocals ∧ v.ident ∉ reservedWords :=
  ⟨by decide +kernel, pathVariables_sound meetingNames⟩

/-! ### Identifiers that constants can have -/

/-- A word that nothing keeps constants from: it is neither reserved nor declared in the method, and
    no other identifier is made into it. -/
structure Unguarded (w : String) : Prop where
  meaning : ¬ (w ∈ reservedWords ∨ w ∈ handlerLocals)
  suffix : ¬ "Param".toList <:+ w.toList
  last : w.toList.getLast?.all (fun c => !Name.isDigit c) = true

/-- What is wanted for a name is an unguarded word where the identifier of the name is. -/
theorem wantedLocal_eq_iff (h : Unguarded ident) :
    wantedLocal name = ident ↔ identifier name = ident := by
  unfold wantedLocal
  dsimp only
  split
  · rename_i hmeaning
    constructor
    · rintro rfl
      apply absurd _ h.suffix
      rw [String.toList_append]
      exact List.suffix_append _ _
    · rintro rfl
      exact absurd hmeaning h.meaning
  · exact Iff.rfl

/-- **A constant has an unguarded word for its name** where a placeholder has it for its
    identifier. -/
theorem exists_ident_iff (h : Unguarded ident) :
    (∃ v ∈ pathVariables names, v.ident = ident) ↔ ∃ name ∈ names, identifier name = ident := by
  constructor
  · rintro ⟨v, hv, rfl⟩
    obtain ⟨name, hname, hident | ⟨k, hident⟩⟩ := exists_wantedLocal_of_mem hv
    · exact ⟨name, hname, (wantedLocal_eq_iff h).mp hident.symm⟩
    · apply absurd hident.symm
      apply numbered_ne_of_getLast?
      intro c hc
      have hlast := h.last
      rw [hc] at hlast
      simpa using hlast
  · rintro ⟨name, hname, hident⟩
    have hwanted : ident ∈ names.map wantedLocal :=
      List.mem_map.mpr ⟨name, hname, (wantedLocal_eq_iff h).mpr hident⟩
    -- the word is free at the start, so that one of the names that want it gets it
    have hgiven := Name.mem_uniqueAll_of_mem hwanted fun hmem => h.meaning (.inr hmem)
    rw [← (map_pathVariables names).2] at hgiven
    exact List.mem_map.mp hgiven

end ApiNodes.Typescript
