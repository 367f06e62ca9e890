import ApiNodes.Proofs.Extraction.Partition
import Mathlib.Data.List.Induction

namespace ApiNodes.Api

/-!
# Items in order of first appearance

Of repeated items the first one counts.

* `FirstUses` — a list has the items of another one, each once, in order of first appearance;
* `firstUses_distinct` — the distinct items of a list are such a list.
-/

variable {xs ys : List String} {x y : String}

/-- A list has the items of another one, each once, in the order in which they first appear
    there. -/
structure FirstUses (xs ys : List String) : Prop where
  nodup : ys.Nodup
  mem : ∀ x, x ∈ ys ↔ x ∈ xs
  order : ys.Pairwise fun x y => xs.idxOf x < xs.idxOf y

/-- A further item is put behind the others, if it is not one of them. -/
theorem distinct_concat (xs : List String) (x : String) :
    distinct (xs ++ [x]) = if x ∈ distinct xs then distinct xs else distinct xs ++ [x] := by
  rw [distinct, List.foldl_append]
  rfl

/-- Distinct items are in order of first appearance. -/
theorem pairwise_distinct (xs : List String) :
    (distinct xs).Pairwise fun x y => xs.idxOf x < xs.idxOf y := by
  -- the last item of a list is the first of its kind, or changes nothing
  induction xs using List.reverseRecOn with
  | nil => exact .nil
  | append_singleton xs x ih =>
    have hmem := (distinct_spec xs).2
    have hold : (distinct xs).Pairwise fun y z => (xs ++ [x]).idxOf y < (xs ++ [x]).idxOf z := by
      refine ih.imp_of_mem fun {y z} hy hz h => ?_
      rwa [List.idxOf_append_of_mem ((hmem y).mp hy), List.idxOf_append_of_mem ((hmem z).mp hz)]
    rw [distinct_concat]
    split_ifs with hx
    · exact hold
    · rw [hmem] at hx
      refine List.pairwise_append.mpr ⟨hold, List.pairwise_singleton _ _, fun y hy z hz => ?_⟩
      obtain rfl := List.mem_singleton.mp hz
      rw [hmem] at hy
      have hlt := List.idxOf_lt_length_iff.mpr hy
      rw [List.idxOf_append_of_mem hy, List.idxOf_append_of_notMem hx]
      omega

/-- **The distinct items of a list** are its items, each once, in order of first appearance. -/
theorem firstUses_distinct (xs : List String) : FirstUses xs (distinct xs) :=
  ⟨(distinct_spec xs).1, (distinct_spec xs).2, pairwise_distinct xs⟩

end ApiNodes.Api
