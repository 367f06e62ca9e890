import ApiNodes.Api.Path
import ApiNodes.Proofs.Text.Pieces

namespace ApiNodes.Api

/-!
# First segments

The resource of a path is named by its first segment.  `FirstSegment` says on the text of a
path what that is, and `firstSegment_iff` that `segments` finds it.
-/

/-- `first` is the first segment of a path: the path without its query goes on from the root,
    over any number of slashes, with the segment, which reaches up to a slash or to the end. -/
def FirstSegment (path first : String) : Prop :=
  ∃ clean query slashes rest : List Char,
    path.toList = clean ++ query ∧ '?' ∉ clean ∧ (∀ c ∈ query.head?, c = '?') ∧
    clean = root.toList ++ (slashes ++ first.toList ++ rest) ∧ (∀ c ∈ slashes, c = '/') ∧
    first ≠ "" ∧ '/' ∉ first.toList ∧ ∀ c ∈ rest.head?, c = '/'

/-- The first segment is the first that is found. -/
theorem firstSegment_iff {path first : String} :
    FirstSegment path first ↔ (segments path).head? = some first := by
  have hfirst : first ≠ "" ↔ first.toList ≠ [] := by simp
  constructor
  · rintro ⟨clean, query, slashes, rest, hpath, hclean, hquery, rfl, hslashes, hne, hfirst', hrest⟩
    have hbefore := Text.takeWhile_ne_eq_iff.mpr ⟨query, hpath, hclean, hquery⟩
    have hroot := Text.after?_eq_some_iff.mpr hbefore
    have hpiece := Text.head?_filter_cut.mpr
      ⟨hfirst.mp hne, hfirst', slashes, rest, rfl, hslashes, hrest⟩
    simp only [segments, hroot, List.head?_map, hpiece, Option.map_some, String.ofList_toList]
  · intro h
    unfold segments at h
    cases hroot : Text.after? root.toList (path.toList.takeWhile (· != '?')) with
    | none => simp [hroot] at h
    | some tail =>
      simp only [hroot, List.head?_map, Option.map_eq_some_iff] at h
      obtain ⟨p, hp, rfl⟩ := h
      obtain ⟨hne, hslash, slashes, rest, rfl, hslashes, hrest⟩ := Text.head?_filter_cut.mp hp
      obtain ⟨query, hpath, hclean, hquery⟩ :=
        Text.takeWhile_ne_eq_iff.mp (Text.after?_eq_some_iff.mp hroot)
      refine ⟨_, query, slashes, rest, hpath, hclean, hquery, ?_, hslashes, ?_, ?_, hrest⟩
      · rw [String.toList_ofList]
      · rwa [hfirst, String.toList_ofList]
      · rwa [String.toList_ofList]

instance (path first : String) : Decidable (FirstSegment path first) :=
  decidable_of_iff _ firstSegment_iff.symm

end ApiNodes.Api
