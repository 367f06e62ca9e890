import ApiNodes.Proofs.Files.Location
import ApiNodes.Proofs.Ordered
import Mathlib.Logic.Function.Basic

namespace ApiNodes.Files

/-!
# What stands in a tree

A tree is seen through the contents of its files, by location (`Tree.file?`).  Each operation on
a tree changes one location, which is the one that its path means, and a tree in which every
entry stands in a folder stays one (`Tree.Sound`).

* `Tree.makeFolder_spec`, `Tree.putFile_spec`, `Tree.dropFile_spec` — what the operations do;
* `Tree.Sound.set`, `Tree.Sound.erase` — soundness;
* `Tree.Sound.way` — the way to an entry of a sound tree.
-/

variable {t t' : Tree} {here l m : Location} {p : Path} {names rest : List String}
  {name : String} {e : Entry} {data : ByteArray}

/-! ### Entries -/

/-- What is set stands there, and the rest as before. -/
theorem Tree.at?_set_eq (hl : l ≠ []) (m : Location) :
    (t.set l e).at? m = if m = l then some e else t.at? m := by
  by_cases hm : m = l
  · subst hm
    cases m with
    | nil => exact absurd rfl hl
    | cons name names => simp [Tree.at?, Tree.set, lookup?_put]
  · rw [if_neg hm, t.at?_set l m e hm]

/-- What is erased is gone, and the rest as before. -/
theorem Tree.at?_erase (hl : l ≠ []) (m : Location) :
    (t.erase l).at? m = if m = l then none else t.at? m := by
  have key : ∀ entries : List (Location × Entry),
      lookup? m (entries.filter (·.1 != l)) = if m = l then none else lookup? m entries := by
    intro entries
    induction entries with
    | nil => simp [lookup?]
    | cons entry entries ih =>
      obtain ⟨k, e⟩ := entry
      by_cases hk : k = l
      · subst hk
        rw [List.filter_cons_of_neg (by simp), ih, lookup?]
        by_cases hm : k = m
        · simp [hm]
        · rw [if_neg hm]
      · rw [List.filter_cons_of_pos (by simpa using hk), lookup?, lookup?, ih]
        by_cases hm : k = m
        · subst hm
          simp [hk]
        · simp [hm]
  cases m with
  | nil => rw [if_neg (Ne.symm hl), Tree.at?, Tree.at?]
  | cons name names => exact key t.entries

/-- What stands below the top is in the table. -/
theorem Tree.exists_entry (hl : l ≠ []) (hsome : (t.at? l).isSome) :
    ∃ entry ∈ t.entries, entry.1 = l := by
  cases l with
  | nil => exact absurd rfl hl
  | cons name names => exact List.mem_map.mp (isSome_lookup?_iff.mp hsome)

/-- The names in a folder are those of its entries. -/
theorem Tree.mem_namesIn_iff : name ∈ t.namesIn l ↔ (t.at? (l ++ [name])).isSome := by
  have hat : t.at? (l ++ [name]) = lookup? (l ++ [name]) t.entries := by
    cases l <;> rfl
  rw [hat, isSome_lookup?_iff, Tree.namesIn, List.mem_mergeSort, List.mem_filterMap, List.mem_map]
  refine exists_congr fun entry => and_congr_right fun _ => ?_
  dsimp only
  constructor
  · intro h
    split_ifs at h with hfolder
    rw [← hfolder]
    exact (List.dropLast_append_getLast? name h).symm
  · intro h
    rw [h, List.dropLast_concat, if_pos rfl, List.getLast?_concat]

/-- The content of the file at a location, if there is a file. -/
def Tree.file? (t : Tree) (l : Location) : Option ByteArray :=
  match t.at? l with
  | some (.file data) => some data
  | _ => none

/-- A file stands where it is found. -/
theorem Tree.file?_eq_some_iff : t.file? l = some data ↔ t.at? l = some (.file data) := by
  unfold Tree.file?
  cases t.at? l with
  | none => simp
  | some e => cases e <;> simp

/-- A path whose content is read leads to a file. -/
theorem Tree.file?_of_fileContent (h : t.fileContent here p = .ok data) :
    t.file? (p.location here) = some data := by
  unfold Tree.fileContent at h
  cases hentry : t.entry here p with
  | error fault => simp [hentry, bind, Except.bind] at h
  | ok e =>
    simp only [hentry, bind, Except.bind] at h
    cases e with
    | folder => cases h
    | file data' =>
      cases h
      exact Tree.file?_eq_some_iff.mpr (Tree.entry_eq_ok_iff.mp hentry).2.2

/-- A folder is no file. -/
theorem Tree.file?_of_folder (h : t.at? l = some .folder) : t.file? l = none := by
  rw [Tree.file?, h]

/-- Where there is neither a file nor a folder there is nothing. -/
theorem Tree.at?_eq_none (hfile : t.file? l = none) (hfolder : t.at? l ≠ some .folder) :
    t.at? l = none := by
  cases hat : t.at? l with
  | none => rfl
  | some e =>
    cases e with
    | folder => exact absurd hat hfolder
    | file data => rw [Tree.file?_eq_some_iff.mpr hat] at hfile; cases hfile

/-- A new folder is not seen among the files. -/
theorem Tree.file?_set_folder (hl : l ≠ []) (h : t.at? l = none) :
    (t.set l .folder).file? = t.file? := by
  funext m
  rw [Tree.file?, Tree.at?_set_eq hl]
  by_cases hm : m = l
  · rw [if_pos hm, hm, Tree.file?, h]
  · rw [if_neg hm, Tree.file?]

/-- A file that is set is seen. -/
theorem Tree.file?_set_file (hl : l ≠ []) :
    (t.set l (.file data)).file? = Function.update t.file? l (some data) := by
  funext m
  rw [Tree.file?, Tree.at?_set_eq hl, Function.update_apply]
  by_cases hm : m = l
  · rw [if_pos hm, if_pos hm]
  · rw [if_neg hm, if_neg hm, Tree.file?]

/-- A file that is erased is not seen any more. -/
theorem Tree.file?_erase (hl : l ≠ []) : (t.erase l).file? = Function.update t.file? l none := by
  funext m
  rw [Tree.file?, Tree.at?_erase hl, Function.update_apply]
  by_cases hm : m = l
  · rw [if_pos hm, if_pos hm]
  · rw [if_neg hm, if_neg hm, Tree.file?]

/-! ### Soundness -/

/-- A name that an entry can have: it does not lead back, and a path can spell it. -/
structure Proper (name : String) : Prop where
  onward : name ≠ ".."
  spelled : Char.ofNat 0 ∉ name.toList

/-- A tree in which every entry stands in a folder under a proper name. -/
structure Tree.Sound (t : Tree) : Prop where
  parent : ∀ l name, (t.at? (l ++ [name])).isSome → t.at? l = some .folder
  proper : ∀ l, (t.at? l).isSome → ∀ name ∈ l, Proper name

instance (name : String) : Decidable (Proper name) :=
  decidable_of_iff (_ ∧ _)
    ⟨fun ⟨honward, hspelled⟩ => ⟨honward, hspelled⟩, fun ⟨honward, hspelled⟩ => ⟨honward, hspelled⟩⟩

/-- A tree is sound if its table says so. -/
theorem Tree.sound_of_entries (h : ∀ entry ∈ t.entries,
    t.at? entry.1.dropLast = some .folder ∧ ∀ name ∈ entry.1, Proper name) : t.Sound := by
  have key {l : Location} (hne : l ≠ []) (hsome : (t.at? l).isSome) :
      t.at? l.dropLast = some .folder ∧ ∀ name ∈ l, Proper name := by
    obtain ⟨entry, hentry, rfl⟩ := Tree.exists_entry hne hsome
    exact h entry hentry
  constructor
  · intro l name hsome
    simpa using (key (by simp) hsome).1
  · intro l hsome
    rcases eq_or_ne l [] with rfl | hne
    · simp
    · exact (key hne hsome).2

/-- What leads to an entry is a folder. -/
theorem Tree.Sound.folder_of_prefix (h : t.Sound) (hsome : (t.at? l).isSome) (hpart : m <+: l)
    (hne : m ≠ l) : t.at? m = some .folder := by
  obtain ⟨rest, rfl⟩ := hpart
  induction rest using List.reverseRecOn with
  | nil => simp at hne
  | append_singleton rest name ih =>
    rw [← List.append_assoc] at hsome
    have hparent := h.parent _ _ hsome
    by_cases hrest : rest = []
    · subst hrest
      simpa using hparent
    · refine ih (by rw [hparent]; rfl) fun heq => hrest ?_
      simpa using heq

/-- So is what a folder stands in. -/
theorem Tree.Sound.folder_dropLast (h : t.Sound) (hfolder : t.at? l = some .folder) :
    t.at? l.dropLast = some .folder := by
  by_cases hl : l = []
  · simp [hl, Tree.at?]
  · refine h.folder_of_prefix (by rw [hfolder]; rfl) (List.dropLast_prefix l) fun heq => hl ?_
    have hlength := congrArg List.length heq
    rw [List.length_dropLast] at hlength
    exact List.length_eq_zero_iff.mp (by omega)

/-- An entry is added in a folder, where no folder stands. -/
theorem Tree.Sound.set (h : t.Sound) (hfolder : t.at? l = some .folder) (hname : Proper name)
    (hfree : t.at? (l ++ [name]) ≠ some .folder) : (t.set (l ++ [name]) e).Sound := by
  have hne : l ++ [name] ≠ [] := by simp
  constructor
  · intro k n hsome
    rw [Tree.at?_set_eq hne] at hsome
    have hparent : t.at? k = some .folder := by
      split_ifs at hsome with hk
      · rwa [(List.append_inj' hk rfl).1]
      · exact h.parent k n hsome
    rwa [t.at?_set _ k e]
    rintro rfl
    exact hfree hparent
  · intro k hsome
    rw [Tree.at?_set_eq hne] at hsome
    split_ifs at hsome with hk
    · subst hk
      rw [List.forall_mem_append]
      exact ⟨h.proper l (by rw [hfolder]; rfl), by simpa using hname⟩
    · exact h.proper k hsome

/-- A file is taken away. -/
theorem Tree.Sound.erase (h : t.Sound) (hl : l ≠ []) (hfile : t.at? l = some (.file data)) :
    (t.erase l).Sound := by
  constructor
  · intro k n hsome
    rw [Tree.at?_erase hl] at hsome
    split_ifs at hsome with hk
    · cases hsome
    · have hparent := h.parent k n hsome
      rw [Tree.at?_erase hl, if_neg fun heq => ?_]
      · exact hparent
      · rw [heq, hfile] at hparent
        cases hparent
  · intro k hsome
    rw [Tree.at?_erase hl] at hsome
    split_ifs at hsome with hk
    · cases hsome
    · exact h.proper k hsome

/-! ### Ways in sound trees -/

/-- Names that lead on from a location keep to what stands below it, or leave it again. -/
theorem exists_back_or_prefix (m : Location) (hrest : rest ≠ []) :
    (∃ k, k ++ [".."] <+: rest ∧ m <+: plainLocation m k) ∨
      ∃ name, m ++ [name] <+: plainLocation m rest := by
  induction rest using List.reverseRecOn with
  | nil => exact absurd rfl hrest
  | append_singleton rest name ih =>
    have hstep : plainLocation m (rest ++ [name]) = plainLocation (plainLocation m rest) [name] :=
      plainLocation_append m rest [name]
    by_cases hback : name = ".."
    · subst hback
      rcases eq_or_ne rest [] with rfl | hne
      · exact .inl ⟨[], List.prefix_rfl, List.prefix_rfl⟩
      rcases ih hne with ⟨k, hk, hm⟩ | ⟨x, hx⟩
      · exact .inl ⟨k, hk.trans (List.prefix_append _ _), hm⟩
      · exact .inl ⟨rest, List.prefix_rfl, (List.prefix_append _ _).trans hx⟩
    · rw [hstep, plainLocation_of_onward (by simpa using Ne.symm hback)]
      rcases eq_or_ne rest [] with rfl | hne
      · exact .inr ⟨name, List.prefix_rfl⟩
      rcases ih hne with ⟨k, hk, hm⟩ | ⟨x, hx⟩
      · exact .inl ⟨k, hk.trans (List.prefix_append _ _), hm⟩
      · exact .inr ⟨x, hx.trans (List.prefix_append _ _)⟩

/-- The folders that names step back out of are there. -/
def Tree.Backs (t : Tree) (l : Location) (names : List String) : Prop :=
  ∀ k, k ++ [".."] <+: names → t.at? (plainLocation l k) = some .folder

/-- Names that only lead on step back out of nothing. -/
theorem Tree.backs_of_onward (h : ".." ∉ names) : t.Backs l names :=
  fun k hk => absurd (hk.subset (by simp)) h

/-- Nor do they if they come after others. -/
theorem Tree.Backs.append (h : t.Backs l names) (hrest : ".." ∉ rest) :
    t.Backs l (names ++ rest) := by
  intro k hk
  refine h k ?_
  rcases List.prefix_or_prefix_of_prefix hk (List.prefix_append names rest) with hk | ⟨j, hj⟩
  · exact hk
  · rw [← hj, List.prefix_append_right_inj] at hk
    replace hj := hj.symm
    rcases List.eq_nil_or_concat' j with rfl | ⟨init, last, rfl⟩
    · rw [hj, List.append_nil]
    · rw [← List.append_assoc] at hj
      have hlast := (List.append_inj' hj rfl).2
      rw [List.singleton_inj] at hlast
      exact absurd (hk.subset (by simp [hlast])) hrest

/-- Folders are there all along a way, also where it steps back. -/
theorem Tree.Way.backs (h : t.Way l (names ++ rest)) : t.Backs l names := by
  intro k hk
  have hpart := (List.prefix_append k [".."]).trans hk
  refine h k (hpart.trans (List.prefix_append _ _)) ?_
  rintro rfl
  have hlength := hk.length_le
  simp only [List.length_append, List.length_singleton] at hlength
  omega

/-- **The way to an entry** of a sound tree, if the folders are there that it leaves again. -/
theorem Tree.Sound.way (h : t.Sound) (hbacks : t.Backs l names)
    (hsome : (t.at? (plainLocation l names)).isSome) : t.Way l names := by
  rintro k ⟨rest, rfl⟩ hne
  have hfolder {m j : Location} (hm : m <+: j) (hj : t.at? j = some .folder) :
      t.at? m = some .folder := by
    by_cases heq : m = j
    · rwa [heq]
    · exact h.folder_of_prefix (by rw [hj]; rfl) hm heq
  have hrest : rest ≠ [] := by simpa using hne
  rcases exists_back_or_prefix (plainLocation l k) hrest with
    ⟨j, hj, hm⟩ | ⟨name, hname⟩
  · refine hfolder hm ?_
    rw [← plainLocation_append]
    refine hbacks (k ++ j) ?_
    rw [List.append_assoc]
    exact List.prefix_append_right_inj k |>.mpr hj
  · rw [← plainLocation_append] at hname
    refine h.folder_of_prefix hsome ((List.prefix_append _ _).trans hname) fun heq => ?_
    have hlength := hname.length_le
    rw [← heq, List.length_append, List.length_singleton] at hlength
    omega

/-! ### Operations -/

/-- An operation that succeeds has found the place that it is done at. -/
theorem Tree.exists_place {fault : Fault} {f : Location → Except Fault Tree}
    (h : (t.target here p fault >>= f) = .ok t') : ∃ l, t.Places here p l ∧ f l = .ok t' := by
  cases htarget : t.target here p fault with
  | error e =>
    rw [htarget] at h
    cases h
  | ok l =>
    rw [htarget] at h
    exact ⟨l, Tree.target_eq_ok_iff.mp htarget, h⟩

/-- A folder is made where there is nothing. -/
theorem Tree.makeFolder_spec (h : t.makeFolder here p = .ok t') :
    ∃ l, t.Places here p l ∧ t.at? l = none ∧ t' = t.set l .folder := by
  obtain ⟨l, hplaces, h⟩ := Tree.exists_place h
  split at h
  · cases h
  · rename_i hat
    cases h
    exact ⟨l, hplaces, hat, rfl⟩

/-- A file is written where there is no folder. -/
theorem Tree.putFile_spec (h : t.putFile here p data = .ok t') :
    ∃ l, t.Places here p l ∧ t.at? l ≠ some .folder ∧ t' = t.set l (.file data) := by
  obtain ⟨l, hplaces, h⟩ := Tree.exists_place h
  split at h
  · cases h
  · rename_i hfolder
    cases h
    exact ⟨l, hplaces, hfolder, rfl⟩

/-- A file is removed where it stands. -/
theorem Tree.dropFile_spec (h : t.dropFile here p = .ok t') :
    ∃ l data, t.Places here p l ∧ t.at? l = some (.file data) ∧ t' = t.erase l := by
  obtain ⟨l, hplaces, h⟩ := Tree.exists_place h
  split at h
  · cases h
  · cases h
  · rename_i data hfile
    cases h
    exact ⟨l, data, hplaces, hfile, rfl⟩

end ApiNodes.Files
