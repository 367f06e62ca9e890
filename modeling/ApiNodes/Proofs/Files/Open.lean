import ApiNodes.Proofs.Files.Contents

namespace ApiNodes.Files

/-!
# Open ways

A folder can be made at the end of a path, and a file be written there, if no file stands on the
way (`Tree.Open`): what is missing there is made, and what is there is a folder.

* `Path.Usable.part` — the folders on the way to a usable path have usable paths;
* `Tree.makeFolder_cases_of_open` — making a folder on an open way;
* `Tree.putFile_eq`, `Tree.dropFile_eq` — operations in their places.
-/

variable {t : Tree} {here l : Location} {p : Path} {k names rest : List String} {data : ByteArray}
  {whole : Bool}

/-! ### Parts of paths -/

/-- A joined text is not shorter than the text of a part. -/
theorem size_intercalate_le (hk : k <+: names) :
    (String.intercalate "/" k).utf8ByteSize ≤ (String.intercalate "/" names).utf8ByteSize := by
  obtain ⟨rest, rfl⟩ := hk
  rcases eq_or_ne k [] with rfl | hk
  · simp
  rcases eq_or_ne rest [] with rfl | hrest
  · simp
  rw [String.intercalate_append_of_ne_nil hk hrest]
  simp only [String.utf8ByteSize_append]
  omega

/-- The text of a part of a path is not longer, but that it may be a single period. -/
theorem Path.size_text_part (hk : k <+: p.names) :
    ({ p with names := k } : Path).text.utf8ByteSize ≤ max 1 p.text.utf8ByteSize := by
  have hsize := size_intercalate_le hk
  have hperiod : ".".utf8ByteSize = 1 := by decide
  have hnames (hne : k ≠ []) : p.names ≠ [] := fun h => hne (List.prefix_nil.mp (h ▸ hk))
  unfold Path.text
  -- without names the text of the current folder is a period
  cases p.anchor with
  | current =>
    rcases eq_or_ne k [] with rfl | hne
    · exact hperiod.le.trans (Nat.le_max_left _ _)
    · simp only [List.isEmpty_iff, hne, hnames hne, if_false]
      omega
  | top spelled =>
    rcases eq_or_ne k [] with rfl | hne
    · by_cases hempty : p.names = []
      · simp only [List.isEmpty_iff, if_true, hempty]
        exact Nat.le_max_right _ _
      · simp only [List.isEmpty_iff, if_true, hempty, if_false, String.utf8ByteSize_append]
        omega
    · simp only [List.isEmpty_iff, hne, hnames hne, if_false, String.utf8ByteSize_append]
      omega
  | outside root =>
    simp only [String.utf8ByteSize_append]
    omega

/-- **A part of a usable path is usable.** -/
theorem Path.Usable.part (h : p.Usable whole) (hk : k <+: p.names) :
    ({ p with names := k } : Path).Usable whole where
  short := by
    have hsize := Path.size_text_part (p := p) hk
    have hshort := h.short
    unfold pathLimit at hshort ⊢
    omega
  fitting name hname := h.fitting name (hk.subset hname)
  inside := h.inside

/-- Names that are put at the end of others count for as much as they are long. -/
theorem size_intercalate_append_le {xs ys : List String} (hxs : xs ≠ []) (hys : ys ≠ [])
    (h : (String.intercalate "/" xs).utf8ByteSize ≤ (String.intercalate "/" ys).utf8ByteSize)
    (names : List String) : (String.intercalate "/" (names ++ xs)).utf8ByteSize ≤
      (String.intercalate "/" (names ++ ys)).utf8ByteSize := by
  rcases eq_or_ne names [] with rfl | hnames
  · exact h
  · rw [String.intercalate_append_of_ne_nil hnames hxs,
      String.intercalate_append_of_ne_nil hnames hys]
    simp only [String.utf8ByteSize_append]
    omega

/-- **A path that goes on by shorter names is usable.** -/
theorem Path.Usable.of_size {xs ys : List String}
    (h : ({ p with names := p.names ++ ys } : Path).Usable whole) (hxs : xs ≠ []) (hys : ys ≠ [])
    (hsize : (String.intercalate "/" xs).utf8ByteSize ≤ (String.intercalate "/" ys).utf8ByteSize)
    (hfitting : ∀ name ∈ xs, Fitting name) :
    ({ p with names := p.names ++ xs } : Path).Usable whole where
  short := by
    refine lt_of_le_of_lt ?_ h.short
    have hle := size_intercalate_append_le hxs hys hsize p.names
    have hempty {zs : List String} (hzs : zs ≠ []) : (p.names ++ zs).isEmpty = false := by
      simp [hzs]
    unfold Path.text
    cases p.anchor with
    | current =>
      simp only [hempty hxs, hempty hys, Bool.false_eq_true, if_false]
      exact hle
    | top spelled =>
      simp only [hempty hxs, hempty hys, Bool.false_eq_true, if_false, String.utf8ByteSize_append]
      omega
    | outside root =>
      simp only [String.utf8ByteSize_append]
      omega
  fitting name hname := by
    rcases List.mem_append.mp hname with hname | hname
    · exact h.fitting name (List.mem_append_left _ hname)
    · exact hfitting name hname
  inside := h.inside

/-- The folder of a usable path has a usable path. -/
theorem Path.Usable.parent (h : p.Usable whole) : p.parent.Usable whole :=
  h.part (List.dropLast_prefix _)

/-- A part of a path without null characters has none. -/
theorem Path.hasNull_part (h : p.hasNull = false) (hk : k <+: p.names) :
    ({ p with names := k } : Path).hasNull = false :=
  List.any_eq_false.mpr fun name hname => List.any_eq_false.mp h name (hk.subset hname)

/-! ### Open ways -/

/-- No file stands on the way along names, or at its end. -/
def Tree.Open (t : Tree) (l : Location) (names : List String) : Prop :=
  ∀ k, k <+: names → t.file? (plainLocation l k) = none

/-- A part of an open way is open. -/
theorem Tree.Open.part (h : t.Open l names) (hk : k <+: names) : t.Open l k :=
  fun j hj => h j (hj.trans hk)

/-- Along an open way a folder is missing, or there are folders up to its end. -/
theorem Tree.Open.follow_cases (h : t.Open here names) (hfolder : t.at? here = some .folder)
    (hfitting : ∀ name ∈ names, Fitting name) :
    (t.follow here names = .ok (plainLocation here names) ∧
      t.at? (plainLocation here names) = some .folder) ∨ t.follow here names = .error .missing := by
  induction names generalizing here with
  | nil => exact .inl ⟨rfl, hfolder⟩
  | cons name names ih =>
    rw [List.forall_mem_cons] at hfitting
    have hnext := Tree.next_eq_ok_iff.mpr ⟨hfolder, hfitting.1, rfl⟩
    have hfile : t.file? (plainLocation here [name]) = none := h [name] (by simp)
    have hrest : t.Open (plainLocation here [name]) names := fun k hk =>
      h (name :: k) (List.cons_prefix_cons.mpr ⟨rfl, hk⟩)
    rw [Tree.follow, hnext]
    simp only [bind, Except.bind]
    by_cases hat : t.at? (plainLocation here [name]) = some .folder
    · rw [if_pos (by rw [hat]; rfl)]
      exact ih hrest hat hfitting.2
    · rw [if_neg (by rw [Tree.at?_eq_none hfile hat]; simp)]
      exact .inr rfl

/-- **Making a folder on an open way:** it is there, or it is made, or one on the way is missing. -/
theorem Tree.makeFolder_cases_of_open (ht : t.Sound)
    (hfolder : t.at? (p.origin here) = some .folder) (husable : p.Usable t.whole)
    (hopen : t.Open (p.origin here) p.names) :
    (t.makeFolder here p = .error .exists ∧ t.entry here p = .ok .folder) ∨
      (∃ t', t.makeFolder here p = .ok t') ∨
      (t.makeFolder here p = .error .missing ∧ p.names ≠ [] ∧
        ¬t.Way (p.origin here) p.names) := by
  have hstart : t.start here p = .ok (p.origin here) :=
    Tree.start_eq_ok_iff.mpr ⟨husable.short, husable.inside, rfl⟩
  unfold Tree.makeFolder Tree.target
  rw [hstart]
  rcases List.eq_nil_or_concat' p.names with hnames | ⟨init, name, hnames⟩
  · -- a path without names is that of the folder it begins in
    refine .inl ⟨?_, Tree.entry_eq_ok_iff.mpr ⟨husable, ?_, ?_⟩⟩
    · rw [hnames]
      rfl
    · rw [hnames]
      exact t.way_nil _
    · rw [Path.location, hnames]
      exact hfolder
  -- otherwise the way up to the last name is followed first
  have hfitting := husable.fitting
  rw [hnames, List.forall_mem_append] at hfitting
  have hinit : t.Open (p.origin here) init :=
    hopen.part (by rw [hnames]; exact List.prefix_append _ _)
  rw [hnames, List.dropLast_concat, List.getLast?_concat]
  rcases hinit.follow_cases hfolder hfitting.1 with ⟨hfollow, hend⟩ | hfollow
  · have hway : t.Way (p.origin here) p.names := by
      rw [hnames]
      exact Tree.way_concat_iff.mpr ⟨(Tree.follow_eq_ok_iff.mp hfollow).1, hend⟩
    have hnext := Tree.next_eq_ok_iff.mpr ⟨hend, hfitting.2 name (by simp), rfl⟩
    have hlocation :
        plainLocation (plainLocation (p.origin here) init) [name] = p.location here := by
      rw [← plainLocation_append, ← hnames]
      rfl
    simp only [bind, Except.bind, hfollow, hnext, hlocation]
    by_cases hback : name = ".."
    · -- the folder that the way steps back to is there
      refine .inl ⟨by rw [if_pos hback]; rfl, Tree.entry_eq_ok_iff.mpr ⟨husable, hway, ?_⟩⟩
      rw [← hlocation, hback]
      exact ht.folder_dropLast hend
    · rw [if_neg hback]
      have hfile : t.file? (p.location here) = none := hopen p.names List.prefix_rfl
      by_cases hat : t.at? (p.location here) = some .folder
      · refine .inl ⟨?_, Tree.entry_eq_ok_iff.mpr ⟨husable, hway, hat⟩⟩
        simp [pure, Except.pure, hat]
        rfl
      · refine .inr (.inl ⟨t.set (p.location here) .folder, ?_⟩)
        simp [pure, Except.pure, Tree.at?_eq_none hfile hat]
  · refine .inr (.inr ⟨?_, by simp, fun hway => ?_⟩)
    · simp [bind, Except.bind, hfollow]
    · obtain ⟨hway, hend⟩ := Tree.way_concat_iff.mp hway
      have hok := Tree.follow_eq_ok_iff.mpr ⟨hway, hfitting.1, fun _ => by rw [hend]; rfl, rfl⟩
      rw [hok] at hfollow
      cases hfollow

/-! ### Operations in their places -/

/-- A file is written in its place. -/
theorem Tree.putFile_eq (hplaces : t.Places here p l) (hfree : t.at? l ≠ some .folder)
    (data : ByteArray) : t.putFile here p data = .ok (t.set l (.file data)) := by
  unfold Tree.putFile
  rw [Tree.target_eq_ok_iff.mpr hplaces]
  dsimp only [bind, Except.bind]
  split
  · rename_i hfolder
    exact absurd hfolder hfree
  · rfl

/-- A file is removed from its place. -/
theorem Tree.dropFile_eq (hplaces : t.Places here p l) (hfile : t.at? l = some (.file data)) :
    t.dropFile here p = .ok (t.erase l) := by
  unfold Tree.dropFile
  rw [Tree.target_eq_ok_iff.mpr hplaces]
  simp [bind, Except.bind, hfile, pure, Except.pure]

end ApiNodes.Files
