import ApiNodes.Proofs.Run.Clearing

namespace ApiNodes.Run

open Files (Location Path Proper Tree)

/-!
# What cleaning a folder removes

Cleaning a folder removes the files in it that have the ending, but for those whose removal is
denied, and a second time around these.  It fails where the path of such an entry is too long to be
used although that of the folder is not.

* `removeEnding_cons_of_clearable`, `removeEnding_cons_of_not_clearable`,
  `removeEnding_cons_of_unusable` — how one entry is dealt with;
* `removeEnding_clears` — how all are;
* `cleanGenerated_exact` — when a folder is cleaned, and what is removed then.
-/

variable {w w' : World} {p folder : Path} {l : Location} {ending name : String}
  {names : List String} {paths removed : List Path}

/-! ### Entries -/

/-- A file of a folder with the ending that may be removed. -/
structure Clearable (w : World) (folder : Path) (ending name : String) : Prop where
  file : (w.files (folder.location w.current ++ [name])).isSome
  ending : ending.toList <:+ name.toList
  allowed : (folder.child name).text ∉ w.denied.remove

/-- **A file that may be removed** is, and then the other entries are dealt with. -/
theorem removeEnding_cons_of_clearable (h : w.Opens folder) (hname : Proper name)
    (husable : (folder.child name).Usable w.tree.whole) (hclear : Clearable w folder ending name) :
    removeEnding ending (folder.child name :: paths) w =
      (do return folder.child name :: (← removeEnding ending paths) : Run (List Path))
        ({ w with tree := w.tree.erase (folder.location w.current ++ [name]) }.noting .info .files
          ("  Removed " ++ name)) := by
  obtain ⟨data, hdata⟩ := Option.isSome_iff_exists.mp hclear.file
  have hplaces : w.tree.Places w.current (folder.child name)
      (folder.location w.current ++ [name]) := by
    refine ⟨husable, h.way_child, ⟨name, ?_, hname.onward⟩, ?_⟩
    · exact List.getLast?_concat
    · exact (Path.location_child hname.onward).symm
  have hthere : isFile (folder.child name) w = (.ok true, w) := by
    rw [h.isFile_child hname husable, hclear.file]
  have hdrop := dropFile_eq hclear.allowed (h.null_child hname) hplaces
    (Tree.file?_eq_some_iff.mp hdata)
  have hattempt : attempt (dropFile (folder.child name)) w =
      (.ok (.ok ()), { w with tree := w.tree.erase (folder.location w.current ++ [name]) }) := by
    rw [attempt, hdrop]
  rw [removeEnding, name_child, if_pos (Text.endsWith_iff.mpr hclear.ending), bind_of_ok hthere,
    if_pos rfl, bind_of_ok hattempt]
  exact bind_of_ok (inform_eq _ _)

/-- **An entry that may not be removed**, or is no file with the ending, is passed over. -/
theorem removeEnding_cons_of_not_clearable (h : w.Opens folder) (hname : Proper name)
    (husable : ending.toList <:+ name.toList → (folder.child name).Usable w.tree.whole)
    (hclear : ¬Clearable w folder ending name) (paths : List Path) :
    ∃ log, removeEnding ending (folder.child name :: paths) w =
      removeEnding ending paths { w with log := log } := by
  by_cases hending : ending.toList <:+ name.toList
  · rw [removeEnding, name_child, if_pos (Text.endsWith_iff.mpr hending),
      bind_of_ok (h.isFile_child hname (husable hending))]
    cases hfile : (w.files (folder.location w.current ++ [name])).isSome with
    | false => exact ⟨w.log, rfl⟩
    | true =>
      -- what is left is a removal that is denied
      have hdenied : (folder.child name).text ∈ w.denied.remove := by
        by_contra hallowed
        exact hclear ⟨hfile, hending, hallowed⟩
      have hdrop : attempt (dropFile (folder.child name)) w =
          (.ok (.error ⟨.denied, (folder.child name).text⟩), w) := by
        unfold attempt dropFile
        rw [get_bind, if_pos hdenied]
        rfl
      rw [if_pos rfl, bind_of_ok hdrop]
      exact ⟨_, rfl⟩
  · rw [removeEnding, name_child, if_neg (mt Text.endsWith_iff.mp hending)]
    exact ⟨w.log, rfl⟩

/-- **An entry with the ending whose path is too long** makes cleaning fail. -/
theorem removeEnding_cons_of_unusable (h : w.Opens folder) (hname : Proper name)
    (hending : ending.toList <:+ name.toList)
    (hsome : (w.tree.at? (folder.location w.current ++ [name])).isSome)
    (hunusable : ¬(folder.child name).Usable w.tree.whole) :
    removeEnding ending (folder.child name :: paths) w =
      (.error (.file ⟨.nameTooLong, (folder.child name).text⟩), w) := by
  obtain ⟨e, hat⟩ := Option.isSome_iff_exists.mp hsome
  rw [← Path.location_child hname.onward] at hat
  have hinside := (Tree.entry_eq_ok_iff.mp h.entry).1.inside
  have hlong := (Tree.entry_cases_of_way (p := folder.child name) hinside h.way_child
    hat).resolve_left fun husable => hunusable husable.1
  rw [removeEnding, name_child, if_pos (Text.endsWith_iff.mpr hending)]
  exact bind_of_error (isFile_of_long (h.null_child hname) hlong)

/-! ### All entries -/

/-- Of some names those are removed that may be, in their order; the tree is without these files,
    and nothing else is changed but the log. -/
structure Clearance (w : World) (folder : Path) (ending : String) (names gone : List String)
    (w' : World) : Prop where
  sublist : gone.Sublist names
  nodup : gone.Nodup
  mem : ∀ name, name ∈ gone ↔ name ∈ names ∧ Clearable w folder ending name
  tree : ∀ l, w'.tree.at? l =
    if l ∈ gone.map (folder.location w.current ++ [·]) then none else w.tree.at? l
  whole : w'.tree.whole = w.tree.whole
  frame : w' = { w with tree := w'.tree, log := w'.log }

/-- Without a file the others may be removed that could be with it. -/
theorem clearable_erase_iff {other : String} {log : List LogRecord} :
    Clearable { w with tree := w.tree.erase (folder.location w.current ++ [other]), log := log }
      folder ending name ↔ Clearable w folder ending name ∧ name ≠ other := by
  have hfiles : ((w.tree.erase (folder.location w.current ++ [other])).file?
      (folder.location w.current ++ [name])).isSome ↔
        (w.files (folder.location w.current ++ [name])).isSome ∧ name ≠ other := by
    rw [Tree.file?_erase (by simp), Function.update_apply]
    by_cases hname : name = other
    · simp [hname]
    · simp [hname, World.files]
  constructor
  · rintro ⟨hfile, hending, hallowed⟩
    obtain ⟨hfile, hne⟩ := hfiles.mp hfile
    exact ⟨⟨hfile, hending, hallowed⟩, hne⟩
  · rintro ⟨⟨hfile, hending, hallowed⟩, hne⟩
    exact ⟨hfiles.mpr ⟨hfile, hne⟩, hending, hallowed⟩

/-- A file that is removed before the others is one more. -/
theorem Clearance.cons {gone : List String} {log : List LogRecord}
    (hclear : Clearable w folder ending name)
    (h : Clearance { w with tree := w.tree.erase (folder.location w.current ++ [name]), log := log }
      folder ending names gone w') :
    Clearance w folder ending (name :: names) (name :: gone) w' where
  sublist := h.sublist.cons_cons name
  nodup := by
    refine List.nodup_cons.mpr ⟨fun hmem => ?_, h.nodup⟩
    exact (clearable_erase_iff.mp ((h.mem name).mp hmem).2).2 rfl
  mem n := by
    rw [List.mem_cons, List.mem_cons, h.mem, clearable_erase_iff]
    by_cases hname : n = name
    · simp [hname, hclear]
    · simp [hname]
  tree l := by
    rw [h.tree, Tree.at?_erase (by simp)]
    simp only [List.map_cons, List.mem_cons]
    by_cases hl : l = folder.location w.current ++ [name]
    · simp [hl]
    · simp [hl]
  whole := h.whole
  frame := h.frame

/-- An entry that is passed over is none of those that are removed. -/
theorem Clearance.skip {gone : List String} {log : List LogRecord}
    (hclear : ¬Clearable w folder ending name)
    (h : Clearance { w with log := log } folder ending names gone w') :
    Clearance w folder ending (name :: names) gone w' where
  sublist := h.sublist.cons name
  nodup := h.nodup
  mem n := by
    rw [h.mem, List.mem_cons]
    constructor
    · rintro ⟨hn, hc⟩
      exact ⟨.inr hn, hc.file, hc.ending, hc.allowed⟩
    · rintro ⟨rfl | hn, hc⟩
      · exact absurd hc hclear
      · exact ⟨hn, hc.file, hc.ending, hc.allowed⟩
  tree := h.tree
  whole := h.whole
  frame := h.frame

/-- **Entries whose paths are usable** are dealt with one after the other. -/
theorem removeEnding_clears (h : w.Opens folder) (hproper : ∀ name ∈ names, Proper name)
    (husable : ∀ name ∈ names, ending.toList <:+ name.toList →
      (folder.child name).Usable w.tree.whole) :
    ∃ gone w', removeEnding ending (names.map folder.child) w =
      (.ok (gone.map folder.child), w') ∧ Clearance w folder ending names gone w' := by
  induction names generalizing w with
  | nil => exact ⟨[], w, rfl, .slnil, .nil, by simp, by simp, rfl, rfl⟩
  | cons name names ih =>
    rw [List.forall_mem_cons] at hproper husable
    rw [List.map_cons]
    by_cases hclear : Clearable w folder ending name
    · -- the others are dealt with where the file is gone, so that its name is not met again
      obtain ⟨data, hdata⟩ := Option.isSome_iff_exists.mp hclear.file
      have hcontinues := (continues_erase (by simp) (Tree.file?_eq_some_iff.mp hdata)).noting
        .info .files ("  Removed " ++ name)
      obtain ⟨gone, w', hrun, hgone⟩ := ih (h.continues hcontinues) hproper.2 husable.2
      refine ⟨name :: gone, w', ?_, hgone.cons hclear⟩
      rw [removeEnding_cons_of_clearable h hproper.1 (husable.1 hclear.ending) hclear]
      exact bind_eq_ok_iff.mpr ⟨_, w', hrun, rfl⟩
    · obtain ⟨log, hskip⟩ := removeEnding_cons_of_not_clearable h hproper.1 husable.1 hclear
        (names.map folder.child)
      obtain ⟨gone, w', hrun, hgone⟩ := ih (w := { w with log := log }) ⟨h.null, h.entry⟩ hproper.2
        husable.2
      exact ⟨gone, w', hskip.trans hrun, hgone.skip hclear⟩

/-- **Entries that were dealt with** had usable paths. -/
theorem usable_of_removeEnding (h : w.Opens folder) (hproper : ∀ name ∈ names, Proper name)
    (hrun : removeEnding ending (names.map folder.child) w = (.ok removed, w'))
    (hmem : name ∈ names) (hending : ending.toList <:+ name.toList)
    (hsome : (w.tree.at? (folder.location w.current ++ [name])).isSome) :
    (folder.child name).Usable w.tree.whole := by
  induction names generalizing w removed with
  | nil => cases hmem
  | cons first names ih =>
    rw [List.forall_mem_cons] at hproper
    rw [List.map_cons] at hrun
    by_contra hunusable
    by_cases hname : name = first
    · subst hname
      rw [removeEnding_cons_of_unusable h hproper.1 hending hsome hunusable] at hrun
      cases hrun
    · -- the first entry is another one, and leaves this one in its place
      obtain ⟨v, rest, hothers, rfl | ⟨r, u, hdrop, hstill⟩⟩ := removeEnding_cons_returned hrun
      · exact hunusable (ih h hproper.2 hothers ((List.mem_cons.mp hmem).resolve_left hname) hsome)
      · obtain ⟨hcontinues, hsame⟩ := dropFile_child_cases hdrop
        replace hcontinues := hcontinues.trans hstill.paves.toContinues
        have hrest := ih (h.continues hcontinues) hproper.2 hothers
          ((List.mem_cons.mp hmem).resolve_left hname)
        rw [hcontinues.current, hcontinues.whole, hstill.tree,
          hsame _ (by simpa using hname)] at hrest
        exact hunusable (hrest hsome)

/-! ### Folders that are cleaned -/

/-- The entries of a folder with an ending have usable paths. -/
def World.Spells (w : World) (folder : Path) (ending : String) : Prop :=
  ∀ name, (w.tree.at? (folder.location w.current ++ [name])).isSome →
    ending.toList <:+ name.toList → (folder.child name).Usable w.tree.whole

/-- A file that stands in a folder, under a name with an ending. -/
def World.Matches (w : World) (folder : Path) (ending : String) (p : Path) : Prop :=
  w.Opens folder ∧ ∃ name, p = folder.child name ∧ ending.toList <:+ name.toList ∧
    (w.files (folder.location w.current ++ [name])).isSome

/-- A folder was cleaned: the files in it with the ending were removed whose removal is not denied,
    unless the folder may not be listed, and nothing else was changed but the log.  They are told in
    the order of their names. -/
structure Cleaned (folder : Path) (ending : String) (w : World) (removed : List Path)
    (w' : World) : Prop where
  sorted : (removed.map (·.name)).Pairwise (· < ·)
  mem : ∀ p, p ∈ removed ↔
    w.Matches folder ending p ∧ folder.text ∉ w.denied.list ∧ p.text ∉ w.denied.remove
  tree : ∀ l, w'.tree.at? l = if l ∈ removed.map (·.location w.current) then none else w.tree.at? l
  whole : w'.tree.whole = w.tree.whole
  frame : w' = { w with tree := w'.tree, log := w'.log }

/-- Where a file stands there is something. -/
theorem isSome_at?_of_files (h : (w.files l).isSome) : (w.tree.at? l).isSome := by
  obtain ⟨data, hdata⟩ := Option.isSome_iff_exists.mp h
  rw [Tree.file?_eq_some_iff.mp hdata]
  rfl

/-- The names in a folder are proper. -/
theorem proper_of_mem_namesIn (hw : w.Sound)
    (hname : name ∈ w.tree.namesIn (folder.location w.current)) : Proper name :=
  hw.tree.proper _ (Tree.mem_namesIn_iff.mp hname) name (by simp)

/-- What a folder is cleaned of are the entries that may be removed. -/
theorem Clearance.cleaned (hw : w.Sound) (h : w.Opens folder)
    (hlisted : folder.text ∉ w.denied.list) {gone : List String}
    (hgone : Clearance w folder ending (w.tree.namesIn (folder.location w.current)) gone w') :
    Cleaned folder ending w (gone.map folder.child) w' where
  sorted := by
    have hsorted : gone.Pairwise (· ≤ ·) := (pairwise_sorted id _).sublist hgone.sublist
    rw [List.map_map]
    have hnames : ((·.name) ∘ folder.child) = id := funext fun name => name_child
    rw [hnames, List.map_id]
    -- the names in a folder are sorted, and none of them is removed twice
    exact (hsorted.and hgone.nodup).imp fun ⟨hle, hne⟩ => lt_of_le_of_ne hle hne
  mem p := by
    rw [List.mem_map]
    constructor
    · rintro ⟨name, hname, rfl⟩
      obtain ⟨-, hclear⟩ := (hgone.mem name).mp hname
      exact ⟨⟨h, name, rfl, hclear.ending, hclear.file⟩, hlisted, hclear.allowed⟩
    · rintro ⟨⟨-, name, rfl, hending, hfile⟩, -, hallowed⟩
      have hmem := Tree.mem_namesIn_iff.mpr (isSome_at?_of_files hfile)
      exact ⟨name, (hgone.mem name).mpr ⟨hmem, hfile, hending, hallowed⟩, rfl⟩
  tree l := by
    have hlocations : (gone.map folder.child).map (·.location w.current) =
        gone.map (folder.location w.current ++ [·]) := by
      rw [List.map_map]
      refine List.map_congr_left fun name hname => ?_
      have hproper := proper_of_mem_namesIn hw ((hgone.mem name).mp hname).1
      exact Path.location_child hproper.onward
    rw [hgone.tree]
    simp only [hlocations]
  whole := hgone.whole
  frame := hgone.frame

/-- **A folder is cleaned** unless the path of an entry with the ending is too long. -/
theorem cleaned_of_spells (hw : w.Sound)
    (h : w.Opens folder → folder.text ∉ w.denied.list → w.Spells folder ending) :
    ∃ removed w', cleanGenerated folder ending w = (.ok removed, w') ∧
      Cleaned folder ending w removed w' := by
  unfold cleanGenerated
  by_cases hopen : w.Opens folder ∧ folder.text ∉ w.denied.list
  · obtain ⟨hopens, hlisted⟩ := hopen
    rw [bind_of_ok (candidates_eq hopens hlisted)]
    have husable : ∀ name ∈ w.tree.namesIn (folder.location w.current),
        ending.toList <:+ name.toList → (folder.child name).Usable w.tree.whole :=
      fun name hname => h hopens hlisted name (Tree.mem_namesIn_iff.mp hname)
    obtain ⟨gone, w', hrun, hgone⟩ := removeEnding_clears hopens
      (fun name hname => proper_of_mem_namesIn hw hname) husable
    exact ⟨_, w', hrun, hgone.cleaned hw hopens hlisted⟩
  · rw [not_and, not_not] at hopen
    obtain ⟨log, hnone⟩ := candidates_of_unlisted hopen
    rw [bind_of_ok hnone]
    refine ⟨[], _, rfl, .nil, fun p => ?_, fun l => rfl, rfl, rfl⟩
    refine iff_of_false List.not_mem_nil ?_
    rintro ⟨⟨hopens, -⟩, hlisted, -⟩
    exact hlisted (hopen hopens)

/-- In a folder that was cleaned, the entries with the ending had usable paths. -/
theorem spells_of_cleanGenerated (hw : w.Sound)
    (hrun : cleanGenerated folder ending w = (.ok removed, w')) (h : w.Opens folder)
    (hlisted : folder.text ∉ w.denied.list) : w.Spells folder ending := by
  intro name hsome hending
  unfold cleanGenerated at hrun
  rw [bind_of_ok (candidates_eq h hlisted)] at hrun
  exact usable_of_removeEnding h (fun name hname => proper_of_mem_namesIn hw hname) hrun
    (Tree.mem_namesIn_iff.mpr hsome) hending hsome

/-- A folder that cleaning returned from was cleaned. -/
theorem cleaned_of_returned (hw : w.Sound)
    (hrun : cleanGenerated folder ending w = (.ok removed, w')) :
    Cleaned folder ending w removed w' := by
  obtain ⟨_, _, hrun', hcleaned⟩ := cleaned_of_spells hw (spells_of_cleanGenerated hw hrun)
  rw [hrun] at hrun'
  cases hrun'
  exact hcleaned

/-! ### Cleaning again -/

/-- What is there after cleaning was there before. -/
theorem Cleaned.at?_of_some (h : Cleaned folder ending w removed w') {e : Files.Entry}
    (hat : w'.tree.at? l = some e) : w.tree.at? l = some e := by
  rw [h.tree] at hat
  split_ifs at hat
  exact hat

/-- An entry was removed from its location if its path is among those that were removed. -/
theorem Cleaned.mem_locations_iff (h : Cleaned folder ending w removed w') (hw : w.Sound)
    (hname : Proper name) :
    folder.location w.current ++ [name] ∈ removed.map (·.location w.current) ↔
      folder.child name ∈ removed := by
  rw [List.mem_map]
  constructor
  · rintro ⟨p, hp, hlocation⟩
    obtain ⟨⟨-, n, rfl, -, hfile⟩, -⟩ := (h.mem p).mp hp
    have hproper : Proper n := hw.tree.proper _ (isSome_at?_of_files hfile) n (by simp)
    rw [Path.location_child hproper.onward] at hlocation
    obtain rfl : n = name := by simpa using hlocation
    exact hp
  · intro hp
    exact ⟨_, hp, Path.location_child hname.onward⟩

/-- The path of a folder leads to it as before. -/
theorem Cleaned.opens_iff (h : Cleaned folder ending w removed w') (hcontinues : Continues w w') :
    w'.Opens folder ↔ w.Opens folder := by
  refine ⟨fun ⟨hnull, hentry⟩ => ⟨hnull, ?_⟩, fun hopens => hopens.continues hcontinues⟩
  obtain ⟨husable, hway, hfolder⟩ := Tree.entry_eq_ok_iff.mp hentry
  rw [hcontinues.current] at hway hfolder
  exact Tree.entry_eq_ok_iff.mpr ⟨h.whole ▸ husable,
    fun k hk hne => h.at?_of_some (hway k hk hne), h.at?_of_some hfolder⟩

/-- A file is still there if it was not removed. -/
theorem Cleaned.isSome_files_iff (h : Cleaned folder ending w removed w') (hw : w.Sound) :
    (w'.files (folder.location w.current ++ [name])).isSome ↔
      (w.files (folder.location w.current ++ [name])).isSome ∧ folder.child name ∉ removed := by
  have hat := h.tree (folder.location w.current ++ [name])
  rw [World.files, Tree.file?, hat]
  by_cases hsome : (w.tree.at? (folder.location w.current ++ [name])).isSome
  · have hlocation := h.mem_locations_iff hw (hw.tree.proper _ hsome name (by simp))
    by_cases hmem : folder.child name ∈ removed
    · rw [if_pos (hlocation.mpr hmem)]
      simp [hmem]
    · rw [if_neg (mt hlocation.mp hmem)]
      simp [hmem, World.files, Tree.file?]
  · -- where nothing was there is nothing
    rw [Option.not_isSome_iff_eq_none.mp hsome, ite_self]
    simp [World.files, Tree.file?, Option.not_isSome_iff_eq_none.mp hsome]

/-- The files that are left with the ending are those that were not removed, whatever may be denied
    from now on. -/
theorem Cleaned.matches_iff (h : Cleaned folder ending w removed w') (hw : w.Sound)
    (hcontinues : Continues w w') (denied : Denials) :
    ({ w' with denied := denied } : World).Matches folder ending p ↔
      w.Matches folder ending p ∧ p ∉ removed := by
  have hcurrent := hcontinues.current
  constructor
  · rintro ⟨⟨hnull, hentry⟩, n, rfl, hending, hfile⟩
    rw [hcurrent] at hfile
    obtain ⟨hfile, hnot⟩ := (h.isSome_files_iff hw).mp hfile
    exact ⟨⟨(h.opens_iff hcontinues).mp ⟨hnull, hentry⟩, n, rfl, hending, hfile⟩, hnot⟩
  · rintro ⟨⟨hopens, n, rfl, hending, hfile⟩, hnot⟩
    obtain ⟨hnull, hentry⟩ := (h.opens_iff hcontinues).mpr hopens
    refine ⟨⟨hnull, hentry⟩, n, rfl, hending, ?_⟩
    rw [hcurrent]
    exact (h.isSome_files_iff hw).mpr ⟨hfile, hnot⟩

/-- **Cleaning a folder.**  It comes to its end unless the folder may be listed and holds an entry
    with the ending whose path cannot be used.  Then it has removed the files with the ending whose
    removal is not denied, and nothing else; and cleaning again with nothing denied removes those
    files that are left. -/
theorem cleanGenerated_exact (hw : w.Sound) (folder : Path) (ending : String) :
    ((∃ removed w', cleanGenerated folder ending w = (.ok removed, w')) ↔
      (w.Opens folder → folder.text ∉ w.denied.list → w.Spells folder ending)) ∧
    ∀ removed w', cleanGenerated folder ending w = (.ok removed, w') →
      Cleaned folder ending w removed w' ∧
      ((w.Opens folder → w.Spells folder ending) →
        ∃ rest w'', cleanGenerated folder ending { w' with denied := {} } = (.ok rest, w'') ∧
          Cleaned folder ending { w' with denied := {} } rest w'' ∧
          ∀ p, p ∈ rest ↔ w.Matches folder ending p ∧ p ∉ removed) := by
  constructor
  · constructor
    · rintro ⟨removed, w', hrun⟩
      exact spells_of_cleanGenerated hw hrun
    · intro h
      obtain ⟨removed, w', hrun, -⟩ := cleaned_of_spells hw h
      exact ⟨removed, w', hrun⟩
  · intro removed w' hrun
    have hcleaned := cleaned_of_returned hw hrun
    refine ⟨hcleaned, fun hspells => ?_⟩
    have hcontinues := (clears_cleanGenerated folder ending w _ w' hrun).toContinues
    obtain ⟨htree, hcurrent⟩ := hcontinues.soundWorld hw
    -- what is there the second time was there the first time
    have hagain : ({ w' with denied := {} } : World).Opens folder →
        ({ w' with denied := {} } : World).Spells folder ending := by
      intro hopens name hsome hending
      obtain ⟨e, hat⟩ := Option.isSome_iff_exists.mp hsome
      replace hat := hcleaned.at?_of_some hat
      rw [hcontinues.current] at hat
      show (folder.child name).Usable w'.tree.whole
      rw [hcleaned.whole]
      exact hspells ((hcleaned.opens_iff hcontinues).mp ⟨hopens.null, hopens.entry⟩) name
        (by rw [hat]; rfl) hending
    obtain ⟨rest, w'', hrun', hrest⟩ := cleaned_of_spells (w := { w' with denied := {} })
      ⟨htree, hcurrent⟩ fun hopens _ => hagain hopens
    refine ⟨rest, w'', hrun', hrest, fun p => ?_⟩
    rw [hrest.mem, hcleaned.matches_iff hw hcontinues]
    exact and_iff_left ⟨List.not_mem_nil, List.not_mem_nil⟩

/-- A folder with two old files, of which one may not be removed, a folder of the same kind of name
    with a file in it, and a file of another name. -/
def guardedWorld : World where
  tree := { entries :=
    [(["out"], .folder), (["out", "b-properties.ts"], .file "b".toUTF8),
     (["out", "a-properties.ts"], .file "a".toUTF8), (["out", "own.ts"], .file "own".toUTF8),
     (["out", "old-properties.ts"], .folder),
     (["out", "old-properties.ts", "c-properties.ts"], .file "c".toUTF8)] }
  denied := { remove := ["out/a-properties.ts"] }

/-- The folder. -/
def guardedFolder : Path := ⟨.current, ["out"]⟩

theorem sound_guardedWorld : guardedWorld.Sound := by
  refine ⟨Tree.sound_of_entries fun entry hentry => ?_, rfl⟩
  simp only [guardedWorld, List.mem_cons, List.not_mem_nil, or_false] at hentry
  rcases hentry with rfl | rfl | rfl | rfl | rfl | rfl <;> exact ⟨rfl, by decide⟩

/-- The one file is removed the first time, and the other one when that is allowed. -/
theorem cleanGenerated_exact_guardedWorld :
    ∃ removed w', cleanGenerated guardedFolder propertiesEnding guardedWorld = (.ok removed, w') ∧
      Cleaned guardedFolder propertiesEnding guardedWorld removed w' ∧
      guardedFolder.child "b-properties.ts" ∈ removed ∧
      guardedFolder.child "a-properties.ts" ∉ removed ∧
      w'.tree.at? ["out", "b-properties.ts"] = none ∧
      ∃ rest w'', cleanGenerated guardedFolder propertiesEnding { w' with denied := {} } =
          (.ok rest, w'') ∧
        guardedFolder.child "a-properties.ts" ∈ rest ∧
        guardedFolder.child "b-properties.ts" ∉ rest := by
  have hspells : guardedWorld.Spells guardedFolder propertiesEnding := by
    intro name hsome _
    obtain ⟨entry, hentry, hname⟩ := Tree.exists_entry (by simp) hsome
    have hnames : ∀ entry ∈ guardedWorld.tree.entries, ∀ last ∈ entry.1.getLast?,
        (guardedFolder.child last).Usable guardedWorld.tree.whole := by
      decide +kernel
    exact hnames entry hentry name (by rw [hname]; simp)
  have hopens : guardedWorld.Opens guardedFolder := ⟨by decide +kernel, rfl⟩
  have hmatches (name : String) (hending : propertiesEnding.toList <:+ name.toList)
      (hfile : (guardedWorld.files ["out", name]).isSome) :
      guardedWorld.Matches guardedFolder propertiesEnding (guardedFolder.child name) :=
    ⟨hopens, name, rfl, hending, hfile⟩
  have ha := hmatches "a-properties.ts" (by decide) rfl
  have hb := hmatches "b-properties.ts" (by decide) rfl
  obtain ⟨removed, w', hrun⟩ := (cleanGenerated_exact sound_guardedWorld guardedFolder
    propertiesEnding).1.mpr fun _ _ => hspells
  obtain ⟨hcleaned, hagain⟩ := (cleanGenerated_exact sound_guardedWorld guardedFolder
    propertiesEnding).2 removed w' hrun
  obtain ⟨rest, w'', hrun', -, hrest⟩ := hagain fun _ => hspells
  have hbmem := (hcleaned.mem _).mpr ⟨hb, by decide +kernel, by decide +kernel⟩
  have hamem : guardedFolder.child "a-properties.ts" ∉ removed :=
    fun hmem => ((hcleaned.mem _).mp hmem).2.2 (by decide +kernel)
  refine ⟨removed, w', hrun, hcleaned, hbmem, hamem, ?_, rest, w'', hrun',
    (hrest _).mpr ⟨ha, hamem⟩, fun hmem => ((hrest _).mp hmem).2 hbmem⟩
  rw [hcleaned.tree, if_pos]
  exact List.mem_map.mpr ⟨_, hbmem, rfl⟩

/-! ### Paths that are too long -/

/-- Names that lead out of a folder and back into it, again and again. -/
def backAndForth : Nat → List String
  | 0 => ["d"]
  | n + 1 => backAndForth n ++ ["..", "d"]

/-- A path to the folder that is just not too long. -/
def deepFolder : Path := ⟨.current, backAndForth 818⟩

/-- The folder, with another one in it that has the name of an old file. -/
def deepWorld : World where
  tree := { entries := [(["d"], .folder), (["d", "old-handler.ts"], .folder)] }

/-- The names lead to the folder. -/
theorem way_backAndForth (n : Nat) : Files.plainLocation [] (backAndForth n) = ["d"] ∧
    deepWorld.tree.Way [] (backAndForth n) ∧
    ∀ name ∈ backAndForth n, name = "d" ∨ name = ".." := by
  induction n with
  | zero => exact ⟨rfl, Tree.way_cons_iff.mpr ⟨rfl, Tree.way_nil _ _⟩, by simp [backAndForth]⟩
  | succ n ih =>
    obtain ⟨hlocation, hway, hnames⟩ := ih
    refine ⟨?_, ?_, ?_⟩
    · rw [backAndForth, Files.plainLocation_append, hlocation]
      rfl
    · have hout : deepWorld.tree.Way [] (backAndForth n ++ [".."]) :=
        Tree.way_concat_iff.mpr ⟨hway, by rw [hlocation]; rfl⟩
      have hsplit : backAndForth (n + 1) = (backAndForth n ++ [".."]) ++ ["d"] := by
        rw [backAndForth, List.append_assoc]
        rfl
      rw [hsplit]
      refine Tree.way_concat_iff.mpr ⟨hout, ?_⟩
      rw [Files.plainLocation_append, hlocation]
      rfl
    · rw [backAndForth, List.forall_mem_append]
      exact ⟨hnames, by simp⟩

/-- There are some. -/
theorem backAndForth_ne_nil (n : Nat) : backAndForth n ≠ [] := by
  cases n <;> simp [backAndForth]

/-- The path that they make, and that to what is in the folder, are as long as there are many. -/
theorem size_backAndForth (n : Nat) (name : String) :
    (Path.text ⟨.current, backAndForth n⟩).utf8ByteSize = 5 * n + 1 ∧
      ((Path.child ⟨.current, backAndForth n⟩ name).text).utf8ByteSize =
        5 * n + 2 + name.utf8ByteSize := by
  have hslash : "/".utf8ByteSize = 1 := by decide +kernel
  have hnames : (String.intercalate "/" (backAndForth n)).utf8ByteSize = 5 * n + 1 := by
    induction n with
    | zero => decide +kernel
    | succ n ih =>
      have hback : (String.intercalate "/" ["..", "d"]).utf8ByteSize = 4 := by decide +kernel
      rw [backAndForth, String.intercalate_append_of_ne_nil (backAndForth_ne_nil n) (by simp),
        String.utf8ByteSize_append, String.utf8ByteSize_append, ih, hback, hslash]
      omega
  constructor
  · simp only [Path.text, List.isEmpty_iff, backAndForth_ne_nil, if_false, hnames]
  · simp only [Path.text, Path.child, List.isEmpty_iff, List.append_eq_nil_iff,
      backAndForth_ne_nil, false_and, if_false]
    rw [String.intercalate_append_of_ne_nil (backAndForth_ne_nil n) (by simp),
      String.utf8ByteSize_append, String.utf8ByteSize_append, hnames, hslash,
      String.intercalate_singleton]

theorem sound_deepWorld : deepWorld.Sound := by
  refine ⟨Tree.sound_of_entries fun entry hentry => ?_, rfl⟩
  simp only [deepWorld, List.mem_cons, List.not_mem_nil, or_false] at hentry
  rcases hentry with rfl | rfl <;> exact ⟨rfl, by decide⟩

/-- The path leads to the folder. -/
theorem opens_deepWorld : deepWorld.Opens deepFolder := by
  obtain ⟨hlocation, hway, hnames⟩ := way_backAndForth 818
  have husable : deepFolder.Usable false := by
    refine ⟨?_, fun name hname => ?_, fun root hroot => by cases hroot⟩
    · rw [deepFolder, (size_backAndForth 818 "").1]
      decide
    · rcases hnames name hname with rfl | rfl <;> decide
  refine ⟨List.any_eq_false.mpr fun name hname => ?_, Tree.entry_eq_ok_iff.mpr ⟨husable, hway, ?_⟩⟩
  · rcases hnames name hname with rfl | rfl <;> decide
  · rw [Path.location, deepFolder]
    exact hlocation ▸ rfl

/-- **Cleaning the folder fails**, although there is no file in it: the path of what has the name of
    an old file is too long. -/
theorem cleanGenerated_fails_deepWorld :
    (∀ p, ¬deepWorld.Matches deepFolder handlerEnding p) ∧
      ¬∃ removed w', cleanGenerated deepFolder handlerEnding deepWorld = (.ok removed, w') := by
  have hlocation : deepFolder.location deepWorld.current = ["d"] := (way_backAndForth 818).1
  constructor
  · rintro p ⟨-, name, -, -, hfile⟩
    rw [hlocation] at hfile
    obtain ⟨data, hdata⟩ := Option.isSome_iff_exists.mp hfile
    rw [Tree.file?_eq_some_iff] at hdata
    by_cases hname : name = "old-handler.ts"
    · subst hname
      cases hdata
    · simp [deepWorld, Tree.at?, lookup?, Ne.symm hname] at hdata
  · rintro ⟨removed, w', hrun⟩
    have hspells := spells_of_cleanGenerated sound_deepWorld hrun opens_deepWorld List.not_mem_nil
    have hshort := (hspells "old-handler.ts" (by rw [hlocation]; rfl) (by decide)).short
    rw [deepFolder, (size_backAndForth 818 "old-handler.ts").2] at hshort
    revert hshort
    decide +kernel

end ApiNodes.Run
