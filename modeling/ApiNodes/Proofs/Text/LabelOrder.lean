import ApiNodes.Text.LabelOrder
import Mathlib.Data.String.Basic

namespace ApiNodes.Text

/-!
# Labels in order

What the order of labels says of the items that are sorted by it.

* `LabelBefore` — a label comes before another;
* `labelLe_iff` — labels are compared by it;
* `pairwise_inLabelOrder` — items stand in the order of their labels, and those with one label in
  the order that they had.
-/

variable {α : Type} {a b c : String}

/-- A label comes before another: once the case of the letters is put aside or, where the labels
    differ in nothing else, by the characters as they are. -/
def LabelBefore (a b : String) : Prop := fold a < fold b ∨ fold a = fold b ∧ a < b

/-- A label that does not come after another comes before it or is the same. -/
theorem labelLe_iff : labelLe a b = true ↔ LabelBefore a b ∨ a = b := by
  unfold labelLe LabelBefore
  simp only [Bool.or_eq_true, Bool.and_eq_true, decide_eq_true_eq, beq_iff_eq]
  constructor
  · rintro (hfold | ⟨hfold, hle⟩)
    · exact .inl (.inl hfold)
    · exact (lt_or_eq_of_le hle).imp_left fun hlt => .inr ⟨hfold, hlt⟩
  · rintro ((hfold | ⟨hfold, hlt⟩) | rfl)
    · exact .inl hfold
    · exact .inr ⟨hfold, hlt.le⟩
    · exact .inr ⟨rfl, le_refl a⟩

/-- Of three labels in a row the first does not come after the last. -/
theorem LabelBefore.trans (h : LabelBefore a b) (h' : LabelBefore b c) : LabelBefore a c := by
  rcases h with hab | ⟨hab, hlt⟩ <;> rcases h' with hbc | ⟨hbc, hlt'⟩
  · exact .inl (hab.trans hbc)
  · exact .inl (hbc ▸ hab)
  · exact .inl (hab ▸ hbc)
  · exact .inr ⟨hab.trans hbc, hlt.trans hlt'⟩

/-- Of two labels one comes before the other, unless they are the same. -/
theorem labelBefore_or (a b : String) : LabelBefore a b ∨ a = b ∨ LabelBefore b a := by
  rcases lt_trichotomy (fold a) (fold b) with hfold | hfold | hfold
  · exact .inl (.inl hfold)
  · rcases lt_trichotomy a b with hlt | heq | hlt
    · exact .inl (.inr ⟨hfold, hlt⟩)
    · exact .inr (.inl heq)
    · exact .inr (.inr (.inr ⟨hfold.symm, hlt⟩))
  · exact .inr (.inr (.inl hfold))

/-- The comparison of labels is transitive. -/
theorem labelLe_trans (hab : labelLe a b = true) (hbc : labelLe b c = true) :
    labelLe a c = true := by
  rw [labelLe_iff] at hab hbc ⊢
  rcases hab with hab | rfl
  · rcases hbc with hbc | rfl
    · exact .inl (hab.trans hbc)
    · exact .inl hab
  · exact hbc

/-- Any two labels can be compared. -/
theorem labelLe_total (a b : String) : (labelLe a b || labelLe b a) = true := by
  rw [Bool.or_eq_true, labelLe_iff, labelLe_iff]
  rcases labelBefore_or a b with hab | heq | hba
  · exact .inl (.inl hab)
  · exact .inl (.inr heq)
  · exact .inr (.inl hba)

/-- Where a label is not let through by another, it comes before it. -/
theorem labelBefore_of_not_labelLe (h : labelLe a b = false) : LabelBefore b a := by
  have hnot : ¬(LabelBefore a b ∨ a = b) := by
    rw [← labelLe_iff, h]
    exact Bool.false_ne_true
  rcases labelBefore_or a b with hab | heq | hba
  · exact absurd (.inl hab) hnot
  · exact absurd (.inr heq) hnot
  · exact hba

/-- **Items in the order of their labels.**  Of two items the one whose label comes before is the
    first, and of two with the same label the one that was the first is it still. -/
theorem pairwise_inLabelOrder (label : α → String) (xs : List α) :
    (inLabelOrder label xs).Pairwise fun x y =>
      LabelBefore (label x) (label y) ∨ label x = label y ∧ [x, y].Sublist xs := by
  have htrans : ∀ x y z, labelLe (label x) (label y) = true → labelLe (label y) (label z) = true →
      labelLe (label x) (label z) = true := fun _ _ _ => labelLe_trans
  have htotal : ∀ x y, (labelLe (label x) (label y) || labelLe (label y) (label x)) = true :=
    fun _ _ => labelLe_total _ _
  induction xs with
  | nil =>
    rw [inLabelOrder, List.mergeSort_nil]
    exact .nil
  | cons x xs ih =>
    -- the first item goes behind those alone whose labels come before its own
    obtain ⟨before, after, hsorted, hrest, hbefore⟩ := List.mergeSort_cons htrans htotal x xs
    have hle := List.pairwise_mergeSort htrans htotal (x :: xs)
    rw [inLabelOrder, hrest] at ih
    rw [hsorted] at hle
    rw [inLabelOrder, hsorted]
    replace ih : (before ++ after).Pairwise fun y z =>
        LabelBefore (label y) (label z) ∨ label y = label z ∧ [y, z].Sublist (x :: xs) :=
      ih.imp fun h => h.imp_right fun ⟨heq, hsub⟩ => ⟨heq, hsub.cons x⟩
    obtain ⟨hfirst, hlast, hcross⟩ := List.pairwise_append.mp ih
    refine List.pairwise_append.mpr ⟨hfirst, List.pairwise_cons.mpr ⟨fun y hy => ?_, hlast⟩, ?_⟩
    · have hxy := List.rel_of_pairwise_cons (List.pairwise_append.mp hle).2.1 hy
      refine (labelLe_iff.mp hxy).imp_right fun heq => ⟨heq, ?_⟩
      have hmem : y ∈ xs := List.mem_mergeSort.mp (hrest ▸ List.mem_append_right before hy)
      exact (List.singleton_sublist.mpr hmem).cons_cons x
    · intro y hy z hz
      rcases List.mem_cons.mp hz with rfl | hz
      · exact .inl (labelBefore_of_not_labelLe (by simpa using hbefore y hy))
      · exact hcross y hy z hz

end ApiNodes.Text
