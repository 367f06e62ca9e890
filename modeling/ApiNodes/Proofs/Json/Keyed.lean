import ApiNodes.Proofs.Extraction.Keyed
import ApiNodes.Proofs.Json.Literals
import ApiNodes.Proofs.Json.Written

namespace ApiNodes.Json

open Api (Keyed isLeaf)

/-!
# Keys of JSON documents

The reader writes the members of an object to their names one after the other, so that in a document
that is read no text is a key twice.

* `readsKeyed` — what is read of a value, of members and of elements;
* `keyed_read` — documents.
-/

variable {v : Value} {s r text : List Char} {room fuel : Nat} {negative : Bool}

/-- What is read in so many steps has different keys. -/
structure ReadsKeyed (fuel : Nat) : Prop where
  value : ∀ {room : Nat} {s r : List Char} {v : Value}, value fuel room s = .ok (v, r) → Keyed v
  members : ∀ {room : Nat} {s r : List Char} {es : List (Value × Value)},
    members fuel room s = .ok (es, r) → ∀ e ∈ es, Keyed e.2
  elements : ∀ {room : Nat} {s r : List Char} {xs : List Value},
    elements fuel room s = .ok (xs, r) → ∀ x ∈ xs, Keyed x

/-! ### Scalars -/

/-- A word stands for a value that holds no others. -/
theorem isLeaf_of_word? (h : word? s = some (v, r)) : isLeaf v = true := by
  obtain ⟨w, hmem, -⟩ := exists_of_word? h
  have hwords : ∀ word ∈ words, isLeaf word.2 = true := by decide
  exact hwords (w, v) hmem

/-- So does a numeral. -/
theorem isLeaf_of_unsigned (h : unsigned negative text s = .ok (v, r)) : isLeaf v = true := by
  unfold unsigned at h
  split at h
  · cases h
  · dsimp only at h
    split at h
    · split at h
      · cases h
      · cases h
        rfl
    · cases h
      rfl

/-- So does a number. -/
theorem isLeaf_of_number (h : number s = .ok (v, r)) : isLeaf v = true := by
  rcases s with _ | ⟨c, s⟩
  · exact isLeaf_of_unsigned ((number_of_head (by simp)).symm.trans h)
  · by_cases hc : c = '-'
    · subst hc
      exact isLeaf_of_unsigned h
    · exact isLeaf_of_unsigned ((number_of_head (by simpa using hc)).symm.trans h)

/-! ### Containers -/

/-- A value. -/
theorem ReadsKeyed.value_succ (h : ReadsKeyed fuel)
    (hv : Json.value (fuel + 1) room s = .ok (v, r)) : Keyed v := by
  unfold Json.value at hv
  split at hv
  · -- a string
    obtain ⟨⟨t, r'⟩, -, hv⟩ := exists_of_bind hv
    cases hv
    exact .leaf rfl
  · -- an object
    obtain ⟨inner, -, hv⟩ := exists_of_bind hv
    split at hv
    · cases hv
      exact .map List.nodup_nil fun e he => by cases he
    · obtain ⟨⟨es, rest⟩, hes, hv⟩ := exists_of_bind hv
      cases hv
      exact Keyed.entriesOf (h.members hes)
  · -- an array
    obtain ⟨inner, -, hv⟩ := exists_of_bind hv
    split at hv
    · cases hv
      exact .list fun x hx => by cases hx
    · obtain ⟨⟨xs, rest⟩, hxs, hv⟩ := exists_of_bind hv
      cases hv
      exact .list (h.elements hxs)
  · -- a word or a number
    split at hv
    · rename_i hword
      cases hv
      exact .leaf (isLeaf_of_word? hword)
    · exact .leaf (isLeaf_of_number hv)

/-- The members of an object. -/
theorem ReadsKeyed.members_succ (h : ReadsKeyed fuel) {es : List (Value × Value)}
    (hes : Json.members (fuel + 1) room s = .ok (es, r)) : ∀ e ∈ es, Keyed e.2 := by
  unfold Json.members at hes
  split at hes
  · obtain ⟨⟨name, r₁⟩, -, hes⟩ := exists_of_bind hes
    dsimp only at hes
    split at hes
    · obtain ⟨⟨v, r₃⟩, hv, hes⟩ := exists_of_bind hes
      dsimp only at hes
      split at hes
      · cases hes
        exact List.forall_mem_singleton.mpr (h.value hv)
      · obtain ⟨⟨rest, r₄⟩, hrest, hes⟩ := exists_of_bind hes
        cases hes
        exact List.forall_mem_cons.mpr ⟨h.value hv, h.members hrest⟩
      · cases hes
    · cases hes
  · cases hes

/-- The elements of an array. -/
theorem ReadsKeyed.elements_succ (h : ReadsKeyed fuel) {xs : List Value}
    (hxs : Json.elements (fuel + 1) room s = .ok (xs, r)) : ∀ x ∈ xs, Keyed x := by
  unfold Json.elements at hxs
  obtain ⟨⟨v, r₁⟩, hv, hxs⟩ := exists_of_bind hxs
  dsimp only at hxs
  split at hxs
  · cases hxs
    exact List.forall_mem_singleton.mpr (h.value hv)
  · obtain ⟨⟨rest, r₂⟩, hrest, hxs⟩ := exists_of_bind hxs
    cases hxs
    exact List.forall_mem_cons.mpr ⟨h.value hv, h.elements hrest⟩
  · cases hxs

/-- **What is read has different keys**, in any number of steps. -/
theorem readsKeyed (fuel : Nat) : ReadsKeyed fuel := by
  induction fuel with
  | zero => exact ⟨fun h => (by cases h), fun h => (by cases h), fun h => (by cases h)⟩
  | succ fuel ih => exact ⟨ih.value_succ, ih.members_succ, ih.elements_succ⟩

/-- **In a document that is read** no text is a key twice. -/
theorem keyed_read {text : String} (h : read text = .ok v) : Keyed v := by
  unfold read at h
  dsimp only at h
  split at h
  · split at h
    · cases h
    · split at h
      · cases h
      · rename_i hvalue
        split at h
        · cases h
          exact (readsKeyed _).value hvalue
        · cases h
  · cases h

end ApiNodes.Json
