import ApiNodes.Files.Tree
import ApiNodes.Proofs.Text.Pieces

namespace ApiNodes.Files

/-!
# Names of paths

The names that a text spells are those of its pieces between slashes, so that the paths that
are put together from folders and names have the names that they seem to have.

* `Path.names_ofString_append` — the names of two paths, one after the other;
* `Path.names_ofString_name` — a name that is a path;
* `Path.name_suffix_text` — the name that a path is spelled with in the end.
-/

variable {s t name : String} {p : Path} {names : List String}

/-- The names that a text spells with a slash in it. -/
theorem Path.names_ofString_append (s t : String) :
    (Path.ofString (s ++ "/" ++ t)).names = (Path.ofString s).names ++ (Path.ofString t).names := by
  have hcut : Text.cut '/' (s ++ "/" ++ t).toList =
      Text.cut '/' s.toList ++ Text.cut '/' t.toList := by
    rw [← Text.cut_append]
    simp
  simp only [Path.ofString, Text.pieces, hcut, List.map_append, List.filter_append]

/-- A name without slashes is the only name that it spells. -/
theorem Path.names_ofString_name (hslash : '/' ∉ name.toList) (hempty : name ≠ "")
    (hdot : name ≠ ".") : (Path.ofString name).names = [name] := by
  simp [Path.ofString, Text.pieces, Text.cut_of_not_mem hslash, hempty, hdot]

/-- What a text begins with decides where its path starts. -/
theorem Path.anchor_ofString_append (h : (Path.ofString s).anchor = .current) (hs : s ≠ "")
    (t : String) : (Path.ofString (s ++ t)).anchor = .current := by
  have hroot : rootOf s.toList = "" := by
    by_contra hroot
    simp [Path.ofString, hroot] at h
  have happend : rootOf (s ++ t).toList = "" := by
    rw [String.toList_append]
    cases hchars : s.toList with
    | nil => exact absurd (String.toList_eq_nil_iff.mp hchars) hs
    | cons c cs =>
      rw [hchars] at hroot
      by_cases hc : c = '/'
      · subst hc
        unfold rootOf at hroot
        split at hroot <;> simp_all
      · unfold rootOf
        split <;> simp_all
  simp only [Path.ofString, happend, if_pos]

/-- A path is spelled with its last name in the end. -/
theorem Path.name_suffix_text (p : Path) : p.name.toList <:+ p.text.toList := by
  rcases List.eq_nil_or_concat p.names with hnames | ⟨folders, name, hnames⟩
  · have hname : p.name = "" := by rw [Path.name, hnames, List.getLast?_nil, Option.getD_none]
    rw [hname]
    exact List.nil_suffix
  · rw [List.concat_eq_append] at hnames
    have hname : p.name = name := by
      rw [Path.name, hnames, List.getLast?_concat, Option.getD_some]
    have htail : name.toList <:+ (String.intercalate "/" p.names).toList := by
      rw [hnames]
      rcases eq_or_ne folders [] with rfl | hfolders
      · simp only [List.nil_append, String.intercalate_singleton, List.suffix_refl]
      · rw [String.intercalate_append_of_ne_nil hfolders (List.cons_ne_nil _ _),
          String.intercalate_singleton, String.toList_append]
        exact List.suffix_append _ _
    rw [hname, Path.text]
    cases p.anchor with
    | current => simpa [hnames] using htail
    | top spelled =>
      have hspelled : p.names.isEmpty = false := by simp [hnames]
      rw [hspelled]
      simp only [Bool.false_eq_true, if_false, String.toList_append]
      exact htail.trans (List.suffix_append _ _)
    | outside root =>
      rw [String.toList_append]
      exact htail.trans (List.suffix_append _ _)

/-- A path from the current folder only adds its names. -/
theorem Path.join_of_current {q : Path} (hq : q.anchor = .current) :
    p.join q = { p with names := p.names ++ q.names } := by
  rw [Path.join, hq]

/-- A path that goes on beside another path goes on from the same folder. -/
theorem Path.join_parent_join {q r u : Path} (hq : q.anchor = .current) (hr : r.anchor = .current)
    (hu : u.anchor = .current) (hne : q.names ≠ []) (h : u.names = q.names.dropLast ++ r.names) :
    (p.join q).parent.join r = p.join u := by
  rw [Path.join_of_current hr, Path.join_of_current hq, Path.join_of_current hu, Path.parent, h,
    List.dropLast_append_of_ne_nil hne, List.append_assoc]

end ApiNodes.Files
