import ApiNodes.Proofs.Run.ExactCleaning

namespace ApiNodes.Run

open Files (Location Path Tree)

/-!
# Cleaning a node

Cleaning removes files of two folders by the endings of their names, and nothing else, whether it
comes to its end or not.  Where it does, and nothing is denied, none of these files is left.

* `clears_clearNode` — what it may remove;
* `clearNode_returned` — what it has removed when it returns;
* `clearNode_returns` — when it does.
-/

variable {w w' : World} {folder output : Path} {l : Location} {ending name : String}
  {removed : List Path} {W : Location → Location → Prop}

/-! ### One folder -/

/-- A folder that can be cleaned: its path leads to it if it is there, and nothing is denied. -/
structure Cleanable (folder : Path) (w : World) : Prop where
  sound : w.Sound
  null : folder.hasNull = false
  usable : folder.Usable w.tree.whole
  backs : w.tree.Backs (folder.origin w.current) folder.names
  denied : w.denied = {}

/-- A folder can still be cleaned when a run went on. -/
theorem Cleanable.continues (h : Cleanable folder w) (hw : Continues w w') :
    Cleanable folder w' where
  sound := hw.soundWorld h.sound
  null := h.null
  usable := hw.whole ▸ h.usable
  backs k hk := by
    rw [hw.current]
    exact hw.folders _ (h.backs k hk)
  denied := hw.denied.trans h.denied

/-- Where there is an entry the path of the folder leads to it. -/
theorem Cleanable.entry (h : Cleanable folder w)
    (hsome : (w.tree.at? (folder.location w.current ++ [name])).isSome) :
    w.tree.entry w.current folder = .ok .folder := by
  have hfolder := h.sound.tree.parent _ _ hsome
  refine Tree.entry_eq_ok_iff.mpr ⟨h.usable, h.sound.tree.way h.backs ?_, hfolder⟩
  rw [← Path.location, hfolder]
  rfl

/-- **A folder that was cleaned** holds no file with the ending.  What it held under such a name
    has a usable path. -/
theorem cleanGenerated_returned (h : Cleanable folder w)
    (hrun : cleanGenerated folder ending w = (.ok removed, w'))
    (hl : InFolder (folder.location w.current) ending l) :
    ((w.tree.at? l).isSome → Listed folder ending w.current l) ∧ w'.files l = none := by
  obtain ⟨name, rfl, hending⟩ := hl
  by_cases hsome : (w.tree.at? (folder.location w.current ++ [name])).isSome
  · have hopens : w.Opens folder := ⟨h.null, h.entry hsome⟩
    have hspells := spells_of_cleanGenerated h.sound hrun hopens (by simp [h.denied])
    have hcleaned := cleaned_of_returned h.sound hrun
    refine ⟨fun _ => ⟨name, rfl, hending, (hspells name hsome hending).anywhere⟩, ?_⟩
    -- a file that was left would have been removed, since nothing is denied
    refine Option.not_isSome_iff_eq_none.mp fun hfile => ?_
    obtain ⟨hfile, hleft⟩ := (hcleaned.isSome_files_iff h.sound).mp hfile
    exact hleft ((hcleaned.mem _).mpr
      ⟨⟨hopens, name, rfl, hending, hfile⟩, by simp [h.denied], by simp [h.denied]⟩)
  · refine ⟨fun hsome' => absurd hsome' hsome, ?_⟩
    refine (clears_cleanGenerated folder ending w _ w' hrun).files_eq_none ?_
    rw [World.files, Tree.file?, Option.not_isSome_iff_eq_none.mp hsome]

/-- A folder is cleaned if what it holds under such a name has a usable path. -/
theorem cleanGenerated_returns (hw : w.Sound)
    (hinside : ∀ root, folder.anchor = .outside root → w.tree.whole = true)
    (h : ∀ l, InFolder (folder.location w.current) ending l → (w.tree.at? l).isSome →
      Listed folder ending w.current l) :
    ∃ removed w', cleanGenerated folder ending w = (.ok removed, w') := by
  have hspells : w.Spells folder ending := by
    intro name hsome hending
    obtain ⟨name', hl, -, husable⟩ := h _ ⟨name, rfl, hending⟩ hsome
    rw [List.append_cancel_left_eq, List.singleton_inj] at hl
    subst hl
    exact ⟨husable.short, husable.fitting, hinside⟩
  obtain ⟨removed, w', hrun, -⟩ := cleaned_of_spells hw fun _ _ => hspells
  exact ⟨removed, w', hrun⟩

/-! ### A node -/

/-- The location of an old file of a node that has a usable path. -/
def Removable (output : Path) (here l : Location) : Prop :=
  Listed (place output "resources/handlers") handlerEnding here l ∨
    Listed (place output "properties") propertiesEnding here l

instance (output : Path) (here l : Location) : Decidable (Removable output here l) :=
  inferInstanceAs (Decidable (_ ∨ _))

/-- Where the folders of a node stand that old files are cleared from. -/
theorem location_folders (output : Path) (here : Location) :
    (place output "resources/handlers").location here =
        output.location here ++ ["resources", "handlers"] ∧
      (place output "properties").location here = output.location here ++ ["properties"] := by
  constructor
  · rw [leads_handlers.location, lastNames_folders.1]
  · rw [leads_properties.location, lastNames_folders.2]

/-- It is the location of a resource file. -/
theorem Removable.isResourceFile {here : Location} (h : Removable output here l) :
    IsResourceFile (output.location here) l := by
  obtain ⟨hhandlers, hproperties⟩ := location_folders output here
  refine h.imp (fun hl => ?_) fun hl => ?_
  · rw [← hhandlers]
    exact hl.inFolder
  · rw [← hproperties]
    exact hl.inFolder

/-- **Cleaning a node** removes nothing but its resource files. -/
theorem clears_clearNode (output : Path) :
    Keeps (Clears (Removable output)) (clearNode output) := by
  refine (still_record _ _ _).clears.bind fun _ => ?_
  have hfirst := (clears_cleanGenerated (place output "resources/handlers") handlerEnding).mono
    fun w w' h => h.mono (V := Removable output) fun here l hl => .inl hl
  have hsecond := (clears_cleanGenerated (place output "properties") propertiesEnding).mono
    fun w w' h => h.mono (V := Removable output) fun here l hl => .inr hl
  exact hfirst.bind fun _ => hsecond.bind fun _ => keeps_pure _

/-- A node is left as it is if the paths of its folders do not lead to them. -/
theorem still_clearNode
    (hhandlers : w.tree.entry w.current (place output "resources/handlers") ≠ .ok .folder)
    (hproperties : w.tree.entry w.current (place output "properties") ≠ .ok .folder)
    (hrun : clearNode output w = (.ok (), w')) : Still w w' := by
  obtain ⟨_, w₀, hlog, hrun⟩ := bind_eq_ok_iff.mp hrun
  obtain ⟨_, v, hrunh, hrun⟩ := bind_eq_ok_iff.mp hrun
  obtain ⟨_, u, hrunp, hrun⟩ := bind_eq_ok_iff.mp hrun
  cases hrun
  have hlogged := still_record _ _ _ _ _ _ hlog
  have hfirst := hlogged.trans
    (still_cleanGenerated (by rwa [hlogged.tree, hlogged.current]) hrunh)
  exact hfirst.trans (still_cleanGenerated (by rwa [hfirst.tree, hfirst.current]) hrunp)

/-- The two folders have no location in common. -/
theorem not_inFolder_both {out : Location} {first second : String}
    (h : InFolder (out ++ ["resources", "handlers"]) first l) :
    ¬InFolder (out ++ ["properties"]) second l := by
  rintro ⟨name, hl, -⟩
  obtain ⟨name', rfl, -⟩ := h
  have hlength := congrArg List.length hl
  simp only [List.length_append, List.length_cons, List.length_nil] at hlength
  omega

/-- What is there after cleaning was there before. -/
theorem Clears.isSome_at? (h : Clears W w w') (hsome : (w'.tree.at? l).isSome) :
    (w.tree.at? l).isSome := by
  by_cases hfolder : w'.tree.at? l = some .folder
  · rw [h.grounds l hfolder]
    rfl
  · cases hfile : w'.files l with
    | none =>
      rw [Tree.at?_eq_none hfile hfolder] at hsome
      cases hsome
    | some data =>
      rcases h.files l with heq | ⟨hnone, -⟩
      · rw [hfile] at heq
        rw [Tree.file?_eq_some_iff.mp heq.symm]
        rfl
      · rw [hfile] at hnone
        cases hnone

/-- What is not removed is there still. -/
theorem Clears.at?_isSome (h : Clears W w w') (hsome : (w.tree.at? l).isSome)
    (hl : ¬W w.current l) : (w'.tree.at? l).isSome := by
  by_cases hfolder : w.tree.at? l = some .folder
  · rw [h.folders l hfolder]
    rfl
  · cases hfile : w.files l with
    | none =>
      rw [Tree.at?_eq_none hfile hfolder] at hsome
      cases hsome
    | some data =>
      have heq := (h.files l).resolve_right fun hgone => hl hgone.2
      rw [hfile] at heq
      rw [Tree.file?_eq_some_iff.mp heq]
      rfl

/-- **A node that was cleaned** holds no resource file.  What stood in the place of one has a usable
    path. -/
theorem clearNode_returned (hhandlers : Cleanable (place output "resources/handlers") w)
    (hproperties : Cleanable (place output "properties") w)
    (hrun : clearNode output w = (.ok (), w'))
    (hl : IsResourceFile (output.location w.current) l) :
    ((w.tree.at? l).isSome → Removable output w.current l) ∧ w'.files l = none := by
  obtain ⟨hfirst, hsecond⟩ := location_folders output w.current
  obtain ⟨_, w₀, hlog, hrun⟩ := bind_eq_ok_iff.mp hrun
  cases hlog
  obtain ⟨_, v, hrunh, hrun⟩ := bind_eq_ok_iff.mp hrun
  obtain ⟨_, u, hrunp, hrun⟩ := bind_eq_ok_iff.mp hrun
  cases hrun
  replace hhandlers := hhandlers.continues
    (still_noting w .info .generation "Cleaning generated directories...").paves.toContinues
  have hclears := clears_cleanGenerated _ _ _ _ _ hrunh
  have hclears' := clears_cleanGenerated _ _ _ _ _ hrunp
  rcases hl with hl | hl
  · -- a handler file is gone after the first folder, and no file comes back
    rw [← hfirst] at hl
    obtain ⟨hlisted, hnone⟩ := cleanGenerated_returned hhandlers hrunh hl
    exact ⟨fun hsome => .inl (hlisted hsome), hclears'.files_eq_none hnone⟩
  · -- a properties file is there until the second folder is cleaned
    have hcontinues := (still_noting w .info .generation
      "Cleaning generated directories...").paves.toContinues.trans hclears.toContinues
    replace hproperties := hproperties.continues hcontinues
    have hl' := hl
    rw [← hsecond, ← hcontinues.current] at hl'
    obtain ⟨hlisted, hnone⟩ := cleanGenerated_returned hproperties hrunp hl'
    refine ⟨fun hsome => .inr ?_, hnone⟩
    rw [hcontinues.current] at hlisted
    refine hlisted (hclears.at?_isSome hsome fun hother => ?_)
    have hother' := hother.inFolder
    replace hother' :
        InFolder ((place output "resources/handlers").location w.current) _ l := hother'
    rw [hfirst] at hother'
    exact not_inFolder_both hother' hl

/-- **Cleaning a node comes to its end** if what stands in the place of a resource file has a usable
    path. -/
theorem clearNode_returns (hw : w.Sound)
    (hinside : ∀ root, output.anchor = .outside root → w.tree.whole = true)
    (h : ∀ l, IsResourceFile (output.location w.current) l → (w.tree.at? l).isSome →
      Removable output w.current l) :
    ∃ w', clearNode output w = (.ok (), w') := by
  obtain ⟨hfirst, hsecond⟩ := location_folders output w.current
  have hanchor {name : String} (hname : Leads name) :
      (place output name).anchor = output.anchor := by
    rw [place, Path.join_of_current hname.anchor]
  have hlog := (still_noting w .info .generation "Cleaning generated directories...").paves
  generalize hw₀ : w.noting .info .generation "Cleaning generated directories..." = w₀ at hlog
  obtain ⟨removed, v, hrunh⟩ : ∃ removed v,
      cleanGenerated (place output "resources/handlers") handlerEnding w₀ = (.ok removed, v) := by
    refine cleanGenerated_returns (hlog.soundWorld hw)
      (hanchor leads_handlers ▸ hlog.whole ▸ hinside) fun l hl hsome => ?_
    subst hw₀
    refine (h l (.inl (hfirst ▸ hl)) hsome).resolve_right fun hother => ?_
    exact not_inFolder_both (hfirst ▸ hl) (hsecond ▸ hother.inFolder)
  have hclears := clears_cleanGenerated _ _ _ _ _ hrunh
  have hcontinues := hlog.toContinues.trans hclears.toContinues
  -- what stands below the properties folder stood there before the handlers were cleaned
  obtain ⟨removed', u, hrunp⟩ : ∃ removed u,
      cleanGenerated (place output "properties") propertiesEnding v = (.ok removed, u) := by
    refine cleanGenerated_returns (hcontinues.soundWorld hw)
      (hanchor leads_properties ▸ hcontinues.whole ▸ hinside) fun l hl hsome => ?_
    rw [hcontinues.current] at hl ⊢
    replace hsome := hclears.isSome_at? hsome
    subst hw₀
    refine (h l (.inr (hsecond ▸ hl)) hsome).resolve_left fun hother => ?_
    exact not_inFolder_both (hfirst ▸ hother.inFolder) (hsecond ▸ hl)
  refine ⟨u, ?_⟩
  unfold clearNode
  rw [bind_of_ok (inform_eq _ _), hw₀]
  exact bind_eq_ok_iff.mpr ⟨removed, v, hrunh, bind_eq_ok_iff.mpr ⟨removed', u, hrunp, rfl⟩⟩

end ApiNodes.Run
