import ApiNodes.Proofs.Run.Changes
import ApiNodes.Proofs.Run.Places

namespace ApiNodes.Run

open Files (Location Path Proper Tree)

/-!
# Clearing a folder

Old files are cleared from a folder one after the other, if its path leads to it.

* `Clears` — a world in which files were removed, and nothing else was done to the tree;
* `World.Opens` — a folder that its path leads to, and with it the paths of its entries;
* `candidates_eq`, `candidates_of_unlisted` — what is found in it;
* `clears_cleanGenerated` — what may be removed from it.
-/

variable {α : Type} {w v w' : World} {p folder : Path} {l : Location} {ending name : String}
  {names : List String} {paths removed : List Path} {W : Location → Location → Prop}

/-! ### Files that are removed -/

/-- A world in which files were removed from some locations, and no folders were made. -/
structure Clears (W : Location → Location → Prop) (w w' : World) : Prop extends Continues w w' where
  files : ∀ l, w'.files l = w.files l ∨ w'.files l = none ∧ W w.current l
  grounds : ∀ l, w'.tree.at? l = some .folder → w.tree.at? l = some .folder

/-- Nothing is removed where nothing is done. -/
theorem Still.clears (h : Still w w') : Clears W w w' :=
  ⟨h.paves.toContinues, fun l => .inl (congrFun h.paves.files l), fun _ hl => h.tree ▸ hl⟩

/-- Files are removed, and then others. -/
theorem Clears.trans (h : Clears W w v) (h' : Clears W v w') : Clears W w w' where
  toContinues := h.toContinues.trans h'.toContinues
  files l := by
    rcases h'.files l with heq | ⟨hnone, hl⟩
    · rw [heq]
      exact h.files l
    · exact .inr ⟨hnone, h.current ▸ hl⟩
  grounds l hl := h.grounds l (h'.grounds l hl)

instance : IsPreorder World (Clears W) where
  refl w := (Still.refl w).clears
  trans _ _ _ := Clears.trans

/-- The relation of cleaning, for more locations. -/
theorem Clears.mono {V : Location → Location → Prop} (h : Clears W w w')
    (hWV : ∀ here l, W here l → V here l) : Clears V w w' :=
  ⟨h.toContinues, fun l => (h.files l).imp_right fun ⟨hnone, hl⟩ => ⟨hnone, hWV _ _ hl⟩, h.grounds⟩

/-- A file that is gone does not come back. -/
theorem Clears.files_eq_none (h : Clears W w w') (hnone : w.files l = none) : w'.files l = none :=
  (h.files l).elim (·.trans hnone) And.left

/-- A computation that does nothing to the tree removes nothing. -/
theorem Keeps.clears {m : Run α} (h : Keeps Still m) : Keeps (Clears W) m :=
  h.mono fun _ _ hstill => hstill.clears

/-- A file is removed where its path leads. -/
theorem clears_dropFile
    (hW : ∀ here, p.Usable true → p.names.getLast? ≠ some ".." → W here (p.location here)) :
    Keeps (Clears W) (dropFile p) := by
  intro w r w' h
  rcases dropFile_cases h with ⟨e, -, rfl⟩ | ⟨l, data, -, -, hplaces, hfile, rfl⟩
  · exact (Still.refl _).clears
  · refine ⟨continues_erase hplaces.ne_nil hfile, fun m => ?_, fun m hm => ?_⟩
    · have hview := Tree.file?_erase (t := w.tree) hplaces.ne_nil
      by_cases hm : m = l
      · obtain ⟨name, hname, hback⟩ := hplaces.last
        refine .inr ⟨?_, ?_⟩
        · rw [World.files, hview, hm, Function.update_self]
        · rw [hm, hplaces.location]
          exact hW _ hplaces.usable.anywhere (by simpa [hname] using hback)
      · left
        rw [World.files, hview, Function.update_of_ne hm]
    · rw [Tree.at?_erase hplaces.ne_nil] at hm
      split_ifs at hm
      exact hm

/-! ### Folders -/

/-- The path of a folder leads to it. -/
structure World.Opens (w : World) (folder : Path) : Prop where
  null : folder.hasNull = false
  entry : w.tree.entry w.current folder = .ok .folder

/-- The path of a folder leads to it while a run goes on. -/
theorem World.Opens.continues (h : w.Opens folder) (hw : Continues w w') : w'.Opens folder := by
  obtain ⟨husable, hway, hfolder⟩ := Tree.entry_eq_ok_iff.mp h.entry
  refine ⟨h.null, Tree.entry_eq_ok_iff.mpr ⟨hw.whole ▸ husable, fun k hk hne => ?_, ?_⟩⟩
  · rw [hw.current]
    exact hw.folders _ (hway k hk hne)
  · rw [hw.current]
    exact hw.folders _ hfolder

/-- The path to an entry of a folder leads through it. -/
theorem World.Opens.way_child (h : w.Opens folder) :
    w.tree.Way ((folder.child name).origin w.current) (folder.child name).names := by
  obtain ⟨-, hway, hfolder⟩ := Tree.entry_eq_ok_iff.mp h.entry
  exact Tree.way_concat_iff.mpr ⟨hway, hfolder⟩

/-- It has no null character. -/
theorem World.Opens.null_child (h : w.Opens folder) (hname : Proper name) :
    (folder.child name).hasNull = false := by
  have hnull := h.null
  unfold Path.hasNull at hnull ⊢
  rw [Path.child, List.any_append, hnull]
  simpa using hname.spelled

/-- If it is usable there is a file if one stands in the folder. -/
theorem World.Opens.isFile_child (h : w.Opens folder) (hname : Proper name)
    (husable : (folder.child name).Usable w.tree.whole) :
    isFile (folder.child name) w =
      (.ok (w.files (folder.location w.current ++ [name])).isSome, w) := by
  have hlocation : (folder.child name).location w.current = folder.location w.current ++ [name] :=
    Path.location_child hname.onward
  have hentry {e : Files.Entry} : w.tree.entry w.current (folder.child name) = .ok e ↔
      w.tree.at? (folder.location w.current ++ [name]) = some e := by
    rw [Tree.entry_eq_ok_iff, and_iff_right husable, and_iff_right h.way_child, hlocation]
  unfold isFile
  cases hfound : entryAt? (folder.child name) w with
  | mk found v =>
  obtain ⟨rfl, rfl | ⟨e, rfl, -, he⟩ | ⟨refusal, -, hunusable⟩⟩ := entryAt?_cases hfound
  · have hnone : v.files (folder.location v.current ++ [name]) = none := by
      refine Option.eq_none_iff_forall_ne_some.mpr fun data hdata => ?_
      rw [Tree.file?_eq_some_iff, ← hentry] at hdata
      rw [entryAt?_eq (h.null_child hname) hdata] at hfound
      cases hfound
    rw [bind_of_ok hfound, hnone]
    rfl
  · rw [bind_of_ok hfound, World.files, Tree.file?, hentry.mp he]
    cases e <;> rfl
  · exact absurd husable hunusable

/-! ### Candidates -/

/-- The location of an entry of a folder, under a name with an ending, that has a usable path. -/
def Listed (folder : Path) (ending : String) (here l : Location) : Prop :=
  ∃ name, l = folder.location here ++ [name] ∧ ending.toList <:+ name.toList ∧
    (folder.child name).Usable true

instance (folder : Path) (ending : String) (here l : Location) :
    Decidable (Listed folder ending here l) :=
  decidable_of_iff _ exists_concat_iff.symm

/-- It is a location in the folder. -/
theorem Listed.inFolder {here : Location} (h : Listed folder ending here l) :
    InFolder (folder.location here) ending l := by
  obtain ⟨name, hl, hending, -⟩ := h
  exact ⟨name, hl, hending⟩

/-- The last name of an entry. -/
@[simp]
theorem name_child : (folder.child name).name = name := by
  simp [Path.name, Path.child]

/-- The entries of a folder are found, unless that is denied. -/
theorem candidates_eq (h : w.Opens folder) (hlisted : folder.text ∉ w.denied.list) :
    candidates folder w =
      (.ok ((w.tree.namesIn (folder.location w.current)).map folder.child), w) := by
  have hlist : attempt (do
      if ← isFolder folder then return (← listFolder folder).map folder.child else return []) w =
      (.ok (.ok ((w.tree.namesIn (folder.location w.current)).map folder.child)), w) := by
    rw [attempt, bind_of_ok (isFolder_eq h.null h.entry), if_pos rfl,
      bind_of_ok (listFolder_eq h.null h.entry hlisted)]
    rfl
  unfold candidates
  rw [bind_of_ok hlist]
  rfl

/-- A folder that is not there, or may not be listed, has no entries. -/
theorem candidates_of_unlisted (h : w.Opens folder → folder.text ∈ w.denied.list) :
    ∃ log, candidates folder w = (.ok [], { w with log := log }) := by
  have hlist : ∃ listed, attempt (do
      if ← isFolder folder then return (← listFolder folder).map folder.child else return []) w =
        (.ok listed, w) ∧ ∀ paths, listed = .ok paths → paths = [] := by
    have hnot (hthere : isFolder folder w = (.ok false, w)) : attempt (do
        if ← isFolder folder then return (← listFolder folder).map folder.child else return []) w =
          (.ok (.ok []), w) := by
      rw [attempt, bind_of_ok hthere]
      rfl
    -- the folder is not asked for its entries unless it is there
    cases hfound : entryAt? folder w with
    | mk found v =>
    obtain ⟨rfl, rfl | ⟨e, rfl, hnull, hentry⟩ | ⟨refusal, rfl, -⟩⟩ := entryAt?_cases hfound
    · exact ⟨_, hnot (bind_of_ok hfound), fun _ h => by cases h; rfl⟩
    · cases e with
      | file data => exact ⟨_, hnot (bind_of_ok hfound), fun _ h => by cases h; rfl⟩
      | folder =>
        have hrefuse : listFolder folder v = (.error (.file ⟨.denied, folder.text⟩), v) := by
          unfold listFolder
          rw [get_bind, if_pos (h ⟨hnull, hentry⟩)]
          rfl
        refine ⟨.error ⟨.denied, folder.text⟩, ?_, fun _ h => by cases h⟩
        rw [attempt, bind_of_ok (isFolder_eq hnull hentry), if_pos rfl, bind_of_error hrefuse]
    · have hthere : isFolder folder v = (.error (.file refusal), v) := bind_of_error hfound
      refine ⟨.error refusal, ?_, fun _ h => by cases h⟩
      rw [attempt, bind_of_error hthere]
  obtain ⟨listed, hlist, hnone⟩ := hlist
  unfold candidates
  rw [bind_of_ok hlist]
  cases listed with
  | ok paths =>
    obtain rfl := hnone paths rfl
    exact ⟨w.log, rfl⟩
  | error e => exact ⟨_, rfl⟩

/-- What is found in a folder are entries of it, and to look for them changes the log at most. -/
theorem candidates_returns (folder : Path) (w : World) :
    ∃ (names : List String) (log : List LogRecord),
      candidates folder w = (.ok (names.map folder.child), { w with log := log }) := by
  by_cases h : w.Opens folder ∧ folder.text ∉ w.denied.list
  · exact ⟨_, w.log, candidates_eq h.1 h.2⟩
  · rw [not_and, not_not] at h
    obtain ⟨log, hnone⟩ := candidates_of_unlisted h
    exact ⟨[], log, hnone⟩

/-! ### One folder -/

/-- Entries with the ending are removed. -/
theorem clears_removeEnding (names : List String) :
    Keeps (Clears (Listed folder ending)) (removeEnding ending (names.map folder.child)) := by
  induction names with
  | nil => exact keeps_pure []
  | cons name names ih =>
    rw [List.map_cons]
    unfold removeEnding
    rw [name_child]
    split
    · rename_i hending
      have hdrop : Keeps (Clears (Listed folder ending)) (dropFile (folder.child name)) := by
        refine clears_dropFile fun here husable hback =>
          ⟨name, ?_, Text.endsWith_iff.mp hending, husable⟩
        exact Path.location_child fun heq => hback (by simp [Path.child, heq])
      refine (still_isFile _).clears.bind fun there => ?_
      split
      · refine hdrop.attempt.bind fun dropped => ?_
        split
        · exact (still_record _ _ _).clears.bind fun _ => ih
        · exact (still_record _ _ _).clears.bind fun _ => ih.bind fun _ => keeps_pure _
      · exact ih
    · exact ih

/-- The files of a folder with an ending are removed. -/
theorem clears_cleanGenerated (folder : Path) (ending : String) :
    Keeps (Clears (Listed folder ending)) (cleanGenerated folder ending) := by
  intro w r w' hrun
  obtain ⟨names, log, hfound⟩ := candidates_returns folder w
  have hstill : Still w { w with log := log } := ⟨rfl, rfl, rfl, rfl, rfl⟩
  unfold cleanGenerated at hrun
  rw [bind_of_ok hfound] at hrun
  exact hstill.clears.trans (clears_removeEnding names _ _ _ hrun)

/-- A folder that its path does not lead to is left as it is. -/
theorem still_cleanGenerated (hentry : w.tree.entry w.current folder ≠ .ok .folder)
    {r : Except RunError (List Path)} (hrun : cleanGenerated folder ending w = (r, w')) :
    Still w w' := by
  have hunlisted : w.Opens folder → folder.text ∈ w.denied.list := fun h => absurd h.entry hentry
  obtain ⟨log, hnone⟩ := candidates_of_unlisted hunlisted
  unfold cleanGenerated at hrun
  rw [bind_of_ok hnone] at hrun
  cases hrun
  exact ⟨rfl, rfl, rfl, rfl, rfl⟩

/-- An entry of a folder is dealt with before the others: nothing is done, or its removal is tried. -/
theorem removeEnding_cons_returned (h : removeEnding ending (p :: paths) w = (.ok removed, w')) :
    ∃ v rest, removeEnding ending paths v = (.ok rest, w') ∧
      (v = w ∨ ∃ r u, dropFile p w = (r, u) ∧ Still u v) := by
  unfold removeEnding at h
  split at h
  · obtain ⟨there, u, hthere, hnext⟩ := bind_eq_ok_iff.mp h
    obtain rfl := (isFile_cases hthere).1
    cases there with
    | false => exact ⟨u, removed, hnext, .inl rfl⟩
    | true =>
      obtain ⟨dropped, v, hattempt, hrest⟩ := bind_eq_ok_iff.mp hnext
      rcases attempt_eq_ok_imp hattempt with ⟨_, rfl, hdrop⟩ | ⟨refusal, rfl, hdrop⟩
      · obtain ⟨_, v', hlog, hothers⟩ := bind_eq_ok_iff.mp hrest
        obtain ⟨rest, w₁, hothers, hend⟩ := bind_eq_ok_iff.mp hothers
        cases hend
        exact ⟨v', rest, hothers, .inr ⟨_, v, hdrop, still_record _ _ _ _ _ _ hlog⟩⟩
      · obtain ⟨_, v', hlog, hothers⟩ := bind_eq_ok_iff.mp hrest
        exact ⟨v', removed, hothers, .inr ⟨_, v, hdrop, still_record _ _ _ _ _ _ hlog⟩⟩
  · exact ⟨w, removed, h, .inl rfl⟩

/-- An entry that is removed leaves the others. -/
theorem dropFile_child_cases {r : Except RunError Unit}
    (h : dropFile (folder.child name) w = (r, w')) :
    Continues w w' ∧ ∀ m, m ≠ folder.location w.current ++ [name] →
      w'.tree.at? m = w.tree.at? m := by
  rcases dropFile_cases h with ⟨e, -, rfl⟩ | ⟨l, data, -, -, hplaces, hfile, rfl⟩
  · exact ⟨Continues.refl _, fun _ _ => rfl⟩
  · refine ⟨continues_erase hplaces.ne_nil hfile, fun m hm => ?_⟩
    obtain ⟨last, hlast, hback⟩ := hplaces.last
    rw [Path.child, List.getLast?_concat, Option.some.injEq] at hlast
    have hl : l = folder.location w.current ++ [name] := by
      rw [hplaces.location]
      exact Path.location_child (hlast ▸ hback)
    rw [Tree.at?_erase hplaces.ne_nil, if_neg (hl ▸ hm)]

end ApiNodes.Run
