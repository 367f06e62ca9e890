import ApiNodes.Ordered
import Mathlib.Data.List.Nodup
import Mathlib.Data.String.Basic

namespace ApiNodes

/-!
# Ordered tables and sorted lists: lemmas

* `lookup?_of_mem` — a table with different keys holds what it lists;
* `tableOf_eq_self` — pairs with different keys are a table already;
* `foldl_putNew` — what is added of pairs whose keys may be there;
* `pairwise_sorted`, `pairwise_map_sorted` — items that are sorted by texts.
-/

variable {κ α : Type} [DecidableEq κ] {k : κ} {a : α} {pairs : List (κ × α)}

/-- A table with different keys holds what is listed in it. -/
theorem lookup?_of_mem (hnodup : (pairs.map Prod.fst).Nodup) (h : (k, a) ∈ pairs) :
    lookup? k pairs = some a := by
  induction pairs with
  | nil => cases h
  | cons p pairs ih =>
    rw [List.map_cons, List.nodup_cons] at hnodup
    rw [lookup?]
    rcases List.mem_cons.mp h with rfl | h
    · rw [if_pos rfl]
    · have hne : p.1 ≠ k := by
        rintro rfl
        exact hnodup.1 (List.mem_map.mpr ⟨_, h, rfl⟩)
      rw [if_neg hne]
      exact ih hnodup.2 h

/-- A table holds something at the keys that it lists. -/
theorem isSome_lookup?_iff : (lookup? k pairs).isSome ↔ k ∈ pairs.map Prod.fst := by
  induction pairs with
  | nil => simp [lookup?]
  | cons p pairs ih =>
    rw [lookup?, List.map_cons, List.mem_cons, ← ih]
    by_cases hk : p.1 = k
    · simp [hk]
    · simp [hk, Ne.symm hk]

/-- What the table of pairs holds is among the pairs. -/
theorem mem_of_lookup?_tableOf (h : lookup? k (tableOf pairs) = some a) : (k, a) ∈ pairs := by
  have key : ∀ (pairs table : List (κ × α)),
      lookup? k (pairs.foldl (fun t p => put p.1 p.2 t) table) = some a →
        (k, a) ∈ pairs ∨ lookup? k table = some a := by
    intro pairs
    induction pairs with
    | nil => exact fun table h => .inr h
    | cons p pairs ih =>
      intro table h
      rcases ih _ h with h | h
      · exact .inl (List.mem_cons_of_mem p h)
      · rw [lookup?_put] at h
        split at h
        · rename_i hk
          cases h
          exact .inl (hk ▸ List.mem_cons_self)
        · exact .inr h
  rcases key pairs [] h with h | h
  · exact h
  · cases h

/-- A new key is written at the end. -/
theorem put_of_not_mem (h : k ∉ pairs.map Prod.fst) : put k a pairs = pairs ++ [(k, a)] := by
  induction pairs with
  | nil => rfl
  | cons p pairs ih =>
    rw [List.map_cons, List.mem_cons, not_or] at h
    rw [put, if_neg (Ne.symm h.1), ih h.2, List.cons_append]

/-- Pairs with different keys are their own table. -/
theorem tableOf_eq_self (hnodup : (pairs.map Prod.fst).Nodup) : tableOf pairs = pairs := by
  have key : ∀ (pairs table : List (κ × α)), ((table ++ pairs).map Prod.fst).Nodup →
      pairs.foldl (fun t p => put p.1 p.2 t) table = table ++ pairs := by
    intro pairs
    induction pairs with
    | nil => exact fun table _ => (List.append_nil table).symm
    | cons p pairs ih =>
      intro table h
      obtain ⟨k, a⟩ := p
      have hp : k ∉ table.map Prod.fst := by
        rw [List.map_append, List.map_cons, List.nodup_middle, List.nodup_cons] at h
        exact fun hmem => h.1 (List.mem_append_left _ hmem)
      have hput : put k a table = table ++ [(k, a)] := put_of_not_mem hp
      rw [List.foldl_cons]
      dsimp only
      rw [hput, ih _ (by rwa [List.append_assoc]), List.append_assoc]
      rfl
  exact key pairs [] hnodup

/-- Of pairs with different keys those are added whose keys are new to a table. -/
theorem foldl_putNew (hnodup : (pairs.map Prod.fst).Nodup) (table : List (κ × α)) :
    pairs.foldl (fun t p => putNew p.1 p.2 t) table =
      table ++ pairs.filter fun p => decide (p.1 ∉ table.map Prod.fst) := by
  induction pairs generalizing table with
  | nil => simp
  | cons p pairs ih =>
    obtain ⟨k, a⟩ := p
    rw [List.map_cons, List.nodup_cons] at hnodup
    rw [List.foldl_cons, ih hnodup.2, putNew, List.filter_cons]
    by_cases hk : k ∈ table.map Prod.fst
    · obtain ⟨b, hb⟩ := Option.isSome_iff_exists.mp (isSome_lookup?_iff.mpr hk)
      simp only [hb, hk, not_true_eq_false, decide_false, Bool.false_eq_true, if_false]
    · have hnone : lookup? k table = none := by
        rw [← Option.not_isSome_iff_eq_none, isSome_lookup?_iff]
        exact hk
      -- the key that is added is none of those that follow
      have hrest : pairs.filter (fun p => decide (p.1 ∉ (table ++ [(k, a)]).map Prod.fst)) =
          pairs.filter fun p => decide (p.1 ∉ table.map Prod.fst) := by
        refine List.filter_congr fun p hp => ?_
        have hne : p.1 ≠ k := ne_of_mem_of_not_mem (List.mem_map_of_mem hp) hnodup.1
        simp [hne]
      simp only [hnone, hrest, hk, not_false_eq_true, decide_true, if_true, List.append_assoc,
        List.singleton_append]

/-! ### Sorting -/

/-- Items that are sorted by texts are in the order of these. -/
theorem pairwise_sorted (key : α → String) (xs : List α) :
    (xs.mergeSort fun x y => decide (key x ≤ key y)).Pairwise fun x y => key x ≤ key y := by
  refine (List.pairwise_mergeSort ?_ ?_ xs).imp fun h => of_decide_eq_true h
  · intro x y z hxy hyz
    exact decide_eq_true (le_trans (of_decide_eq_true hxy) (of_decide_eq_true hyz))
  · intro x y
    simpa using le_total (key x) (key y)

/-- If the texts are different they increase. -/
theorem pairwise_map_sorted (key : α → String) {xs : List α} (hnodup : (xs.map key).Nodup) :
    ((xs.mergeSort fun x y => decide (key x ≤ key y)).map key).Pairwise (· < ·) := by
  rw [← ((List.mergeSort_perm xs fun x y => decide (key x ≤ key y)).map key).nodup_iff] at hnodup
  have hsorted := List.pairwise_map.mpr (pairwise_sorted key xs)
  exact (hsorted.and hnodup).imp fun ⟨hle, hne⟩ => lt_of_le_of_ne hle hne

end ApiNodes
