import ApiNodes.Text.Casing

namespace ApiNodes.Text

/-!
# The order of labels

Labels are sorted without regard to case; labels that differ in nothing but case are sorted
by their characters.  Sorting keeps the order of items with equal labels.
-/

/-- The first label does not come after the second. -/
def labelLe (a b : String) : Bool :=
  decide (fold a < fold b) || (fold a == fold b && decide (a ≤ b))

/-- Items in the order of their labels. -/
def inLabelOrder {α : Type} (label : α → String) (xs : List α) : List α :=
  xs.mergeSort fun a b => labelLe (label a) (label b)

/-- Sorting drops and adds nothing. -/
theorem inLabelOrder_perm {α : Type} (label : α → String) (xs : List α) :
    (inLabelOrder label xs).Perm xs := List.mergeSort_perm xs _

end ApiNodes.Text
