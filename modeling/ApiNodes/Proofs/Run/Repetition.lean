import ApiNodes.Proofs.Run.Returns

namespace ApiNodes.Run

open Api (PlainDocument)
open Files (Location Path Tree)
open Typescript (Remark)

/-!
# Repeated generations

A generation starts by clearing away what an earlier one has left, so that what it leaves is what
it would have left without them.  For the proof the run that comes after others and the run
without them are followed side by side: where the first one writes a file, the second one can
(`Follows`), since the folders and the other files of a node only grow.

* `follows_writeBatches` — the batches of both runs;
* `History.survives` — what earlier runs leave of what was there;
* `generate_cleans` — a run leaves no resource files but its own;
* `generate_forgets` — both runs leave the same files.
-/

variable {α β : Type} {w v w' a b a' b' : World} {p output : Path} {l : Location} {content : String}
  {g : Generation} {loaded : Loaded} {resources : List Api.Resource}

/-! ### Side by side -/

/-- A world that holds no more than another one, so that a file can be written in it where it can
    be in the other. -/
structure Below (b a : World) : Prop where
  sound : b.Sound
  denied : b.denied.write = []
  whole : b.tree.whole = a.tree.whole
  current : b.current = a.current
  folders : ∀ l, b.tree.at? l = some .folder → a.tree.at? l = some .folder
  files : ∀ l, (b.files l).isSome → (a.files l).isSome

/-- It does not matter what is done to other things than the tree. -/
theorem Below.still (h : Below b a) (ha : Still a a') (hb : Still b b') : Below b' a' where
  sound := hb.paves.toContinues.soundWorld h.sound
  denied := by rw [hb.denied, h.denied]
  whole := by rw [hb.tree, ha.tree, h.whole]
  current := by rw [hb.current, ha.current, h.current]
  folders l hl := by
    rw [ha.tree]
    exact h.folders l (hb.tree ▸ hl)
  files l hl := by
    rw [World.files, ha.tree]
    exact h.files l (by rwa [World.files, hb.tree] at hl)

/-- A file can be written where it can be with more in the way. -/
theorem Below.room (h : Below b a) (ha : Room p a) : Room p b where
  null := ha.null
  usable := h.whole ▸ ha.usable
  last := ha.last
  open_way k hk := by
    rw [h.current]
    have hnone := ha.open_way k hk
    by_contra hfile
    have hsome := h.files _ (Option.isSome_iff_ne_none.mpr hfile)
    rw [World.files, hnone] at hsome
    cases hsome
  free hfolder := ha.free (h.folders _ (h.current ▸ hfolder))
  apart := h.current ▸ ha.apart

/-- A computation that returns with less there if it does with more, and returns the same. -/
def Follows (m : Run α) : Prop :=
  ∀ b a x a', Below b a → m a = (.ok x, a') → ∃ b', m b = (.ok x, b') ∧ Below b' a'

/-- A value. -/
theorem follows_pure (x : α) : Follows (pure x) := by
  intro b a y a' h hrun
  cases hrun
  exact ⟨b, rfl, h⟩

/-- A failure. -/
theorem follows_throw (e : RunError) : Follows (throw e : Run α) := by
  intro b a y a' h hrun
  cases hrun

/-- One computation after another. -/
theorem Follows.bind {m : Run α} {f : α → Run β} (hm : Follows m) (hf : ∀ x, Follows (f x)) :
    Follows (m >>= f) := by
  intro b a y a' h hrun
  obtain ⟨x, v, hfirst, hnext⟩ := bind_eq_ok_iff.mp hrun
  obtain ⟨u, hfirst', hu⟩ := hm b a x v h hfirst
  obtain ⟨b', hnext', hb'⟩ := hf x u v y a' hu hnext
  exact ⟨b', bind_eq_ok_iff.mpr ⟨x, u, hfirst', hnext'⟩, hb'⟩

/-- Writing to the log. -/
theorem follows_record (level : Level) (origin : Origin) (message : String) :
    Follows (record level origin message) := by
  intro b a y a' h hrun
  cases hrun
  have hb := still_noting b level origin message
  exact ⟨_, rfl, h.still (still_noting a level origin message) hb⟩

/-- Rendering. -/
theorem follows_rendered (text : Except Template.RenderError α) : Follows (rendered text) := by
  cases text with
  | error e => exact follows_throw _
  | ok x => exact follows_pure x

/-- The review of a batch. -/
theorem follows_requireSound (files : List (String × String)) : Follows (requireSound files) := by
  unfold requireSound
  split
  · exact follows_pure ()
  · exact follows_throw _

/-- The extraction of resources. -/
theorem follows_extractResources (config : Api.Config) (document : Value) :
    Follows (extractResources config document) := by
  have hrecord (renamed : List (Api.Endpoint × String)) : Follows (recordRenamings renamed) := by
    induction renamed with
    | nil => exact follows_pure ()
    | cons first rest ih => exact (follows_record _ _ _).bind fun _ => ih
  refine (hrecord _).bind fun _ => ?_
  split
  · exact follows_pure _
  · exact follows_throw _

/-- **Writing a file.** -/
theorem follows_writeArtifact (p : Path) (content : String) :
    Follows (writeArtifact p content) := by
  intro b a q a' h hrun
  obtain ⟨b', hrun'⟩ := writeArtifact_returns content h.sound (by simp [h.denied])
    (h.room (room_of_returned hrun))
  rcases writeArtifact_cases hrun with ⟨e, he, -⟩ | ⟨hq, -, ha, hfiles⟩
  · cases he
  cases hq
  rcases writeArtifact_cases hrun' with ⟨e, he, -⟩ | ⟨-, -, hb, hfiles'⟩
  · cases he
  refine ⟨b', hrun', hb.soundWorld h.sound, by rw [hb.denied, h.denied],
    by rw [hb.whole, ha.whole, h.whole], by rw [hb.current, ha.current, h.current],
    fun l hl => ?_, fun l hl => ?_⟩
  · refine (folder_iff_of_writeArtifact hrun).mpr ?_
    rw [← h.current]
    exact ((folder_iff_of_writeArtifact hrun').mp hl).imp_left (h.folders l)
  · rw [hfiles, ← h.current, Function.update_apply]
    rw [hfiles', Function.update_apply] at hl
    split_ifs at hl ⊢
    · exact hl
    · exact h.files l hl

/-- Writing files one after the other. -/
theorem follows_writeArtifacts (folder : Path) (origin : Origin) (announce : String)
    (files : List (String × String)) : Follows (writeArtifacts folder origin announce files) := by
  induction files with
  | nil => exact follows_pure []
  | cons file files ih =>
    exact (follows_writeArtifact _ _).bind fun _ => (follows_record _ _ _).bind fun _ =>
      ih.bind fun _ => follows_pure _

/-- **Writing the batches of a node.** -/
theorem follows_writeBatches (g : Generation) (resources : List Api.Resource) :
    Follows (writeBatches g resources) := by
  have hresources : Follows (generateResources g resources) := by
    induction resources with
    | nil => exact follows_pure []
    | cons r rs ih =>
      have hfirst : Follows (generateResource g r) :=
        (follows_record _ _ _).bind fun _ => (follows_rendered _).bind fun files =>
          (follows_requireSound files).bind fun _ => follows_writeArtifacts _ _ _ files
      exact hfirst.bind fun _ => ih.bind fun _ => follows_pure _
  have hlast : Follows (writeLastBatch g resources) :=
    (follows_rendered _).bind fun files => (follows_requireSound files).bind fun _ =>
      (follows_record _ _ _).bind fun _ => follows_writeArtifacts _ _ _ files
  refine hresources.bind fun _ => ?_
  split
  · exact hlast.bind fun _ => follows_pure _
  · exact (follows_pure _).bind fun _ => follows_pure _

/-! ### Earlier runs -/

/-- A world that has the tree of another one. -/
structure Resumes (w v : World) : Prop where
  tree : v.tree = w.tree
  current : v.current = w.current

/-- It is as sound as the other one. -/
theorem Resumes.sound_iff (h : Resumes w v) : v.Sound ↔ w.Sound := by
  constructor
  · rintro ⟨htree, hcurrent⟩
    rw [h.tree] at htree hcurrent
    exact ⟨htree, h.current ▸ hcurrent⟩
  · rintro ⟨htree, hcurrent⟩
    exact ⟨h.tree ▸ htree, by rw [h.tree, h.current, hcurrent]⟩

/-- A world in which nothing was done has the tree of the one before. -/
theorem Still.resumes (h : Still w w') : Resumes w w' := ⟨h.tree, h.current⟩

/-- One world has the tree of another, and a third one that of both. -/
theorem Resumes.trans (h : Resumes w v) (h' : Resumes v w') : Resumes w w' :=
  ⟨h'.tree.trans h.tree, h'.current.trans h.current⟩

/-- The worlds that earlier generations into a node lead to, however they end.  Between two of them
    anything may change but for the tree: what is generated from which document, and what is
    denied. -/
inductive History (output : Path) (w : World) : World → Prop
  /-- There was no earlier run. -/
  | start : History output w w
  /-- There was one more. -/
  | run {v u : World} (hbefore : History output w v) (hresumes : Resumes v u) (g : Generation)
    (houtput : g.output = output) : History output w (generate g u).2

/-- What runs into a node leave of what was there. -/
structure Survives (output : Path) (w w' : World) : Prop where
  whole : w'.tree.whole = w.tree.whole
  current : w'.current = w.current
  sound : w.Sound → w'.Sound
  folders : ∀ l, w.tree.at? l = some .folder → w'.tree.at? l = some .folder
  files : ∀ l, (w.files l).isSome → (w'.files l).isSome ∨ Removable output w.current l

/-- What survives between worlds that have the trees of others. -/
theorem Survives.resumes {u u' : World} (h : Survives output w v) (hstart : Resumes w u)
    (hend : Resumes v u') : Survives output u u' where
  whole := by rw [hend.tree, hstart.tree, h.whole]
  current := by rw [hend.current, hstart.current, h.current]
  sound hu := hend.sound_iff.mpr (h.sound (hstart.sound_iff.mp hu))
  folders l hl := by
    rw [hend.tree]
    exact h.folders l (hstart.tree ▸ hl)
  files l hl := by
    rw [World.files, hend.tree, hstart.current]
    exact h.files l (by rwa [World.files, hstart.tree] at hl)

/-- The folders survive that a path steps back out of. -/
theorem Survives.backs (h : Survives output w w')
    (hbacks : w.tree.Backs (p.origin w.current) p.names) :
    w'.tree.Backs (p.origin w'.current) p.names := fun k hk => by
  rw [h.current]
  exact h.folders _ (hbacks k hk)

/-- What survives a run, and then another one. -/
theorem Survives.trans (h : Survives output w v) (h' : Survives output v w') :
    Survives output w w' where
  whole := h'.whole.trans h.whole
  current := h'.current.trans h.current
  sound hw := h'.sound (h.sound hw)
  folders l hl := h'.folders l (h.folders l hl)
  files l hl := by
    rcases h.files l hl with hl | hl
    · rw [← h.current]
      exact h'.files l hl
    · exact .inr hl

/-- **A generation takes away** no folder and no file but resource files under usable paths. -/
theorem survives_generate (hw : w.Sound) (g : Generation) :
    Survives g.output w (generate g w).2 := by
  obtain ⟨r, w', hrun⟩ : ∃ r w', generate g w = (r, w') := ⟨_, _, rfl⟩
  rw [hrun]
  rcases generate_cases hw hrun with
    ⟨e, v, -, -, hstill⟩ | ⟨loaded, v, written, shared, versions, -, -, hleaves⟩
  · have hpaves := hstill.paves
    exact ⟨hpaves.whole, hpaves.current, hpaves.soundWorld, hpaves.folders,
      fun l hl => .inl (by rwa [hpaves.files])⟩
  · refine ⟨hleaves.whole, hleaves.current, hleaves.soundWorld, hleaves.folders, fun l hl => ?_⟩
    obtain ⟨cleared, hcleared, hfiles⟩ := hleaves.files
    rcases hcleared l with heq | ⟨-, hremovable⟩
    · left
      rw [hfiles]
      exact isSome_withText (isSome_withText (isSome_overlay (heq ▸ hl)))
    · exact .inr hremovable

/-- Nor do the generations of a history. -/
theorem History.survives (h : History output w v) (hw : w.Sound) : Survives output w v := by
  induction h with
  | start => exact ⟨rfl, rfl, fun hw => hw, fun _ hl => hl, fun _ hl => .inl hl⟩
  | run hbefore hresumes g houtput ih =>
    have hu := ih.resumes ⟨rfl, rfl⟩ hresumes
    exact houtput ▸ (houtput ▸ hu).trans (survives_generate (hu.sound hw) g)

/-! ### The same files -/

/-- The folders of a node can be cleaned if its registry can be written. -/
theorem cleanable_folders (hw : w.Sound) (hdenied : w.denied = {})
    (hbacks : w.tree.Backs (output.origin w.current) output.names)
    (hnull : (place output Artifact.propertyRegistryPath).hasNull = false)
    (husable : (place output Artifact.propertyRegistryPath).Usable w.tree.whole) :
    Cleanable (place output "resources/handlers") w ∧ Cleanable (place output "properties") w := by
  have hjoin {name : String} (hname : Leads name) :
      place output name = { output with names := output.names ++ lastNames name } :=
    Path.join_of_current hname.anchor
  have hregistry : Leads Artifact.propertyRegistryPath :=
    leads_of_mem_registryNames (by simp [registryNames])
  rw [hjoin hregistry, lastNames_registry.1] at hnull husable
  have hnull' : output.hasNull = false := by
    unfold Path.hasNull at hnull
    rw [List.any_append, Bool.or_eq_false_iff] at hnull
    exact hnull.1
  -- the names of both folders take less room than that of the registry file
  have key {name : String} (hname : Leads name) (hne : lastNames name ≠ [])
      (hsize : (String.intercalate "/" (lastNames name)).utf8ByteSize ≤
        (String.intercalate "/" ["property-registry.ts"]).utf8ByteSize)
      (hfitting : ∀ part ∈ lastNames name, Files.Fitting part)
      (hspelled : (lastNames name).any (·.toList.contains (Char.ofNat 0)) = false) :
      Cleanable (place output name) w := by
    rw [hjoin hname]
    refine ⟨hw, ?_, husable.of_size hne (by simp) hsize hfitting, hbacks.append hname.onward,
      hdenied⟩
    unfold Path.hasNull at hnull' ⊢
    rw [List.any_append, hnull', hspelled]
    rfl
  obtain ⟨hhandlers, hproperties⟩ := lastNames_folders
  constructor
  · exact key leads_handlers (by rw [hhandlers]; simp) (by rw [hhandlers]; decide +kernel)
      (by rw [hhandlers]; simp [Files.Fitting, Files.nameLimit]; decide +kernel)
      (by rw [hhandlers]; decide +kernel)
  · exact key leads_properties (by rw [hproperties]; simp) (by rw [hproperties]; decide +kernel)
      (by rw [hproperties]; simp [Files.Fitting, Files.nameLimit]; decide +kernel)
      (by rw [hproperties]; decide +kernel)

/-- After cleaning, the world of earlier runs holds what the world without them does. -/
theorem below_of_cleared (h : Survives output b a) (hb : b.Sound)
    (ha : Cleanable (place output "resources/handlers") a ∧ Cleanable (place output "properties") a)
    (hb' : Cleanable (place output "resources/handlers") b ∧
      Cleanable (place output "properties") b)
    (hinside : ∀ root, output.anchor = .outside root → b.tree.whole = true)
    (hrun : clearNode output a = (.ok (), a')) :
    ∃ b', clearNode output b = (.ok (), b') ∧ Below b' a' ∧
      ∀ l, IsResourceFile (output.location b.current) l →
        a'.files l = none ∧ b'.files l = none := by
  have hcleared := fun l => clearNode_returned (l := l) ha.1 ha.2 hrun
  obtain ⟨b', hrun'⟩ : ∃ b', clearNode output b = (.ok (), b') := by
    refine clearNode_returns hb hinside fun l hl hsome => ?_
    rw [← h.current] at hl ⊢
    by_cases hfolder : b.tree.at? l = some .folder
    · exact (hcleared l hl).1 (by rw [h.folders l hfolder]; rfl)
    · have hfile : (b.files l).isSome := by
        by_contra hnone
        rw [Tree.at?_eq_none (Option.not_isSome_iff_eq_none.mp hnone) hfolder] at hsome
        cases hsome
      rcases h.files l hfile with hfile' | hremovable
      · obtain ⟨data, hdata⟩ := Option.isSome_iff_exists.mp hfile'
        exact (hcleared l hl).1 (by rw [Tree.file?_eq_some_iff.mp hdata]; rfl)
      · exact h.current ▸ hremovable
  have hcleared' := fun l => clearNode_returned (l := l) hb'.1 hb'.2 hrun'
  have hclears := clears_clearNode _ _ _ _ hrun
  have hclears' := clears_clearNode _ _ _ _ hrun'
  refine ⟨b', hrun', ⟨hclears'.soundWorld hb, by rw [hclears'.denied, hb'.1.denied],
    by rw [hclears'.whole, hclears.whole, h.whole],
    by rw [hclears'.current, hclears.current, h.current],
    fun l hl => hclears.folders l (h.folders l (hclears'.grounds l hl)), fun l hl => ?_⟩,
    fun l hl => ⟨(hcleared l (h.current ▸ hl)).2, (hcleared' l hl).2⟩⟩
  -- a file that is left is no resource file
  have hother : ¬IsResourceFile (output.location b.current) l := fun hresource => by
    rw [(hcleared' l hresource).2] at hl
    cases hl
  have hkept : b'.files l = b.files l := by
    rcases hclears'.files l with heq | ⟨-, hremovable⟩
    · exact heq
    · exact absurd hremovable.isResourceFile hother
  have hthere : (a.files l).isSome := by
    rcases h.files l (hkept ▸ hl) with hthere | hremovable
    · exact hthere
    · exact absurd hremovable.isResourceFile hother
  rcases hclears.files l with heq | ⟨-, hremovable⟩
  · rwa [heq]
  · exact absurd hremovable.isResourceFile (h.current ▸ hother)

/-- After its batches a generation goes on, and changes none of their files. -/
theorem conclude_keeps (hw : w.Sound) {paths : List Path} {r : Except RunError Outcome}
    (h : conclude g loaded resources paths w = (r, w')) :
    Continues w w' ∧ (¬g.output.location w.current <+: g.versionFile.location w.current →
      ∀ l, IsGenerated (g.output.location w.current) l → w'.files l = w.files l) := by
  obtain ⟨shared, v, hshares, -, hend⟩ := conclude_cases hw h
  have hshared {l : Location} (hl : IsGenerated (g.output.location w.current) l) :
      v.files l = w.files l := by
    rw [hshares.files]
    refine withText_of_ne fun _ heq => ?_
    subst heq
    exact not_isGenerated_sharedLocation _ hl
  rcases hend with ⟨e, -, hpaves⟩ | ⟨text, -, -, hcontinues, hfiles⟩
  · refine ⟨hshares.toContinues.trans hpaves.toContinues, fun _ l hl => ?_⟩
    rw [hpaves.files, hshared hl]
  · refine ⟨hshares.toContinues.trans hcontinues, fun hversion l hl => ?_⟩
    rw [hfiles, hshares.current, ← hshared hl]
    exact withText_of_ne fun _ heq => hversion (heq ▸ hl.below)

/-- The registry of a node can be written where a generation into it gets through its batches. -/
theorem usable_registry (hg : g.renderer.Regular) (hregistry : g.config.updateRegistry = true)
    {found : List Api.Resource × List Path} (h : prepare g loaded w = (.ok found, w')) :
    (place g.output Artifact.propertyRegistryPath).hasNull = false ∧
      (place g.output Artifact.propertyRegistryPath).Usable w.tree.whole := by
  obtain ⟨v, written, hclear, hoverlays, hbatches, -⟩ := prepare_returned h
  obtain ⟨file, hfile, hname⟩ := exists_registry_file hg hregistry hbatches propertyRegistryPath_mem
  obtain ⟨hnull, husable, -⟩ := hname ▸ hoverlays.reaches file hfile
  rw [hoverlays.whole, (clears_clearNode _ _ _ _ hclear).whole] at husable
  exact ⟨hnull, husable⟩

/-- Up to its batches a generation leaves no resource files but those that it writes. -/
theorem prepare_cleans (hw : w.Sound) (hdenied : w.denied = {}) (hg : g.renderer.Regular)
    (hregistry : g.config.updateRegistry = true)
    (hbacks : w.tree.Backs (g.output.origin w.current) g.output.names)
    {found : List Api.Resource × List Path} (h : prepare g loaded w = (.ok found, w'))
    (hl : IsResourceFile (g.output.location w.current) l) (hsome : (w'.files l).isSome) :
    ∃ p ∈ found.2, l = p.location w.current := by
  obtain ⟨hnull, husable⟩ := usable_registry hg hregistry h
  obtain ⟨hhandlers, hproperties⟩ := cleanable_folders hw hdenied hbacks hnull husable
  obtain ⟨v, written, hclear, hoverlays, -, hpaths⟩ := prepare_returned h
  rw [hoverlays.files, (clears_clearNode _ _ _ _ hclear).current] at hsome
  rcases overlay_cases w.current g.output written v.files l with heq | ⟨file, hfile, heq, -⟩
  · rw [heq, (clearNode_returned hhandlers hproperties hclear hl).2] at hsome
    cases hsome
  · exact ⟨place g.output file.1, hpaths ▸ List.mem_map_of_mem hfile, heq⟩

/-- **What a generation does up to its batches** it does without the runs before it, and with the
    same files. -/
theorem prepare_forgets (h : Survives g.output b a) (hb : b.Sound) (hda : a.denied = {})
    (hdb : b.denied = {}) (hg : g.renderer.Regular) (hregistry : g.config.updateRegistry = true)
    (hbacks : b.tree.Backs (g.output.origin b.current) g.output.names)
    {found : List Api.Resource × List Path} (hrun : prepare g loaded a = (.ok found, a')) :
    ∃ b', prepare g loaded b = (.ok found, b') ∧
      ∀ l, IsGenerated (g.output.location b.current) l → b'.files l = a'.files l := by
  obtain ⟨hnull, husable⟩ := usable_registry hg hregistry hrun
  have ha := cleanable_folders (h.sound hb) hda (h.backs hbacks) hnull husable
  have hb' := cleanable_folders hb hdb hbacks hnull (h.whole ▸ husable)
  have hinside (root : String) (hroot : g.output.anchor = .outside root) : b.tree.whole = true := by
    rw [← h.whole]
    refine husable.inside root ?_
    rwa [place, Path.join_of_current (leads_of_mem_registryNames propertyRegistryPath_mem).anchor]
  obtain ⟨_, a₁, hclear, hnext⟩ := bind_eq_ok_iff.mp hrun
  obtain ⟨b₁, hclear', hbelow, hnone⟩ := below_of_cleared h hb ha hb' hinside hclear
  have hfollows : Follows (do
      let resources ← extractResources g.config loaded.document
      inform .generation ("Found " ++ toString resources.length ++ " resources to generate")
      let paths ← writeBatches g resources
      return (resources, paths)) :=
    (follows_extractResources _ _).bind fun _ => (follows_record _ _ _).bind fun _ =>
      (follows_writeBatches _ _).bind fun _ => follows_pure _
  obtain ⟨b', hnext', -⟩ := hfollows _ _ _ _ hbelow hnext
  have hrun' : prepare g loaded b = (.ok found, b') := bind_eq_ok_iff.mpr ⟨_, b₁, hclear', hnext'⟩
  -- both runs write the files of the same batches
  obtain ⟨v, written, hcleared, hoverlays, hbatches, -⟩ := prepare_returned hrun
  obtain ⟨v', written', hcleared', hoverlays', hbatches', -⟩ := prepare_returned hrun'
  obtain rfl := hbatches'.unique hbatches
  rw [hclear] at hcleared
  rw [hclear'] at hcleared'
  cases hcleared
  cases hcleared'
  have hcurrent : a₁.current = b.current := by
    rw [(clears_clearNode _ _ _ _ hclear).current, h.current]
  have hcurrent' : b₁.current = b.current := (clears_clearNode _ _ _ _ hclear').current
  refine ⟨b', hrun', fun l hl => ?_⟩
  rw [hoverlays.files, hoverlays'.files, hcurrent, hcurrent']
  rcases hl with hl | hl
  · exact overlay_congr (by rw [(hnone l hl).1, (hnone l hl).2])
  · obtain ⟨name, hname, rfl⟩ := exists_of_mem_registryLocations hl
    obtain ⟨file, hfile, rfl⟩ := exists_registry_file hg hregistry hbatches hname
    exact overlay_congr_of_mem _ _ ⟨file, hfile, rfl⟩

/-- A generation that returns is through its batches, and lists their files. -/
theorem prepare_of_generate (hload : load g.source g.timeout (begun w) = (.ok loaded, v))
    (hv : v.Sound) {outcome : Outcome} (hrun : generate g w = (.ok outcome, w')) :
    ∃ found u, prepare g loaded v = (.ok found, u) ∧ found.2 ⊆ outcome.files := by
  obtain ⟨u, hfrom, -⟩ := generate_of_load hload hrun
  rw [generateFrom_eq] at hfrom
  obtain ⟨found, u', hprepare, hconclude⟩ := bind_eq_ok_iff.mp hfrom
  refine ⟨found, u', hprepare, ?_⟩
  obtain ⟨v₁, written, hclear, hoverlays, -⟩ := prepare_returned hprepare
  have hu' := hoverlays.soundWorld ((clears_clearNode _ _ _ _ hclear).soundWorld hv)
  obtain ⟨shared, x, -, -, ⟨e, he, -⟩ | ⟨text, houtcome, -⟩⟩ := conclude_cases hu' hconclude
  · cases he
  · cases houtcome
    exact List.subset_append_left _ _

/-- From there it goes on, and the files of its batches stay as they are. -/
theorem generate_keeps (hload : load g.source g.timeout (begun w) = (.ok loaded, v))
    (hv : v.Sound) {found : List Api.Resource × List Path} {u : World}
    (hprepare : prepare g loaded v = (.ok found, u)) :
    Continues u (generate g w).2 ∧
      (¬g.output.location v.current <+: g.versionFile.location v.current →
        ∀ l, IsGenerated (g.output.location v.current) l →
          (generate g w).2.files l = u.files l) := by
  obtain ⟨r, w', hrun⟩ : ∃ r w', generate g w = (r, w') := ⟨_, _, rfl⟩
  obtain ⟨x, hfrom, hend⟩ := generate_of_load hload hrun
  rw [generateFrom_eq, bind_of_ok hprepare] at hfrom
  obtain ⟨v₁, written, hclear, hoverlays, -⟩ := prepare_returned hprepare
  have hclears := clears_clearNode _ _ _ _ hclear
  obtain ⟨hcontinues, hfiles⟩ :=
    conclude_keeps (hoverlays.soundWorld (hclears.soundWorld hv)) hfrom
  rw [hrun, ← hclears.current, ← hoverlays.current]
  refine ⟨hcontinues.trans hend.paves.toContinues, fun hversion l hl => ?_⟩
  rw [← hfiles hversion l hl, World.files, hend.tree]

/-- How a generation that returns gets through its batches. -/
theorem exists_prepare (hw : w.Sound) {outcome : Outcome}
    (hrun : generate g w = (.ok outcome, w')) :
    ∃ loaded v found u, Still w v ∧ prepare g loaded v = (.ok found, u) ∧
      found.2 ⊆ outcome.files ∧ Continues u w' ∧
      (¬g.output.location w.current <+: g.versionFile.location w.current →
        ∀ l, IsGenerated (g.output.location w.current) l → w'.files l = u.files l) := by
  rcases generate_cases hw hrun with ⟨e, v, -, heq, -⟩ | ⟨loaded, v, _, _, _, hload, -⟩
  · cases heq
  have hstill := still_loaded hload
  have hv := hstill.paves.soundWorld hw
  obtain ⟨found, u, hprepare, hfiles⟩ := prepare_of_generate hload hv hrun
  have hkeeps := generate_keeps hload hv hprepare
  rw [hrun, hstill.current] at hkeeps
  exact ⟨loaded, v, found, u, hstill, hprepare, hfiles, hkeeps⟩

/-- **A generation cleans its node.**  When it returns there are no resource files but those that it
    lists.  The folders have to be there that the path of the output steps back out of. -/
theorem generate_cleans (hw : w.Sound) (hdenied : w.denied = {}) (hg : g.renderer.Regular)
    (hregistry : g.config.updateRegistry = true)
    (hbacks : w.tree.Backs (g.output.origin w.current) g.output.names)
    (hversion : ¬g.output.location w.current <+: g.versionFile.location w.current)
    {outcome : Outcome} (hrun : generate g w = (.ok outcome, w'))
    (hl : IsResourceFile (g.output.location w.current) l) (hsome : (w'.files l).isSome) :
    ∃ p ∈ outcome.files, l = p.location w.current := by
  obtain ⟨loaded, v, found, u, hstill, hprepare, hfiles, -, hkept⟩ := exists_prepare hw hrun
  rw [hkept hversion l (.inl hl)] at hsome
  rw [← hstill.tree, ← hstill.current] at hbacks
  rw [← hstill.current] at hl ⊢
  obtain ⟨p, hp, heq⟩ := prepare_cleans (hstill.paves.soundWorld hw) (hstill.denied.trans hdenied)
    hg hregistry hbacks hprepare hl hsome
  exact ⟨p, hfiles hp, heq⟩

/-- **A generation forgets the runs before it.**  When it returns it leaves the same resource files
    and registry files as it would have left without the earlier runs, and no others.  The folders
    have to be there that the path of the output steps back out of. -/
theorem generate_forgets {loaded' : Loaded} {va vb : World} {outcome : Outcome}
    (hw : w.Sound) (hbacks : w.tree.Backs (g.output.origin w.current) g.output.names)
    (hg : g.renderer.Regular) (hregistry : g.config.updateRegistry = true)
    (hversion : ¬g.output.location w.current <+: g.versionFile.location w.current)
    (hhistory : History g.output w v) (ha : Resumes v a) (hb : Resumes w b)
    (hda : a.denied = {}) (hdb : b.denied = {})
    (hloada : load g.source g.timeout (begun a) = (.ok loaded, va))
    (hloadb : load g.source g.timeout (begun b) = (.ok loaded', vb))
    (hdocument : loaded'.document = loaded.document)
    (hrun : generate g a = (.ok outcome, a')) :
    (∀ l, IsGenerated (g.output.location w.current) l → (generate g b).2.files l = a'.files l) ∧
      ∀ l, IsResourceFile (g.output.location w.current) l → (a'.files l).isSome →
        ∃ p ∈ outcome.files, l = p.location w.current := by
  have hstilla := still_loaded hloada
  have hstillb := still_loaded hloadb
  -- where the two runs start: the one has what survives of what the other has
  have hresumesb := hb.trans hstillb.resumes
  have hsurvives : Survives g.output vb va :=
    (hhistory.survives hw).resumes hresumesb (ha.trans hstilla.resumes)
  have hvb : vb.Sound := hresumesb.sound_iff.mpr hw
  have hva : va.Sound := hsurvives.sound hvb
  have hbacksb : vb.tree.Backs (g.output.origin vb.current) g.output.names := by
    rw [hresumesb.tree, hresumesb.current]
    exact hbacks
  rw [← hresumesb.current] at hversion ⊢
  refine ⟨fun l hl => ?_, fun l hl hsome => ?_⟩
  -- up to its batches the one does what the other did
  · obtain ⟨found, ua, hpreparea, -⟩ := prepare_of_generate hloada hva hrun
    obtain ⟨ub, hprepareb, hfiles⟩ := prepare_forgets hsurvives hvb (hstilla.denied.trans hda)
      (hstillb.denied.trans hdb) hg hregistry hbacksb hpreparea
    have hsame : prepare g loaded' vb = (.ok found, ub) := by
      unfold prepare at hprepareb ⊢
      rwa [hdocument]
    have hkept := (generate_keeps hloada hva hpreparea).2 (hsurvives.current ▸ hversion) l
      (hsurvives.current ▸ hl)
    rw [hrun] at hkept
    rw [(generate_keeps hloadb hvb hsame).2 hversion l hl, hfiles l hl]
    exact hkept.symm
  · have hcurrent : a.current = vb.current := by rw [← hsurvives.current, hstilla.current]
    have hbacksa : a.tree.Backs (g.output.origin a.current) g.output.names := by
      rw [← hstilla.tree, ← hstilla.current]
      exact hsurvives.backs hbacksb
    have ha' : a.Sound := ha.sound_iff.mpr ((hhistory.survives hw).sound hw)
    rw [← hcurrent] at hversion hl ⊢
    exact generate_cleans ha' hda hg hregistry hbacksa hversion hrun hl hsome

/-! ### From the network -/

/-- A document is kept, or that is denied, whatever the tree. -/
theorem keep_tree (document : Value) (source : String) (w : World) (t : Tree) :
    (keep document source { w with tree := t }).1 = (keep document source w).1 := by
  rcases keep_cases document source with ⟨e, hkeep⟩ | ⟨version, content, hkeep⟩
  · rw [hkeep, hkeep]
  · rw [hkeep, hkeep]
    dsimp only
    split_ifs <;> rfl

/-- What is loaded from the network does not depend on the tree. -/
theorem load_tree (timeout : Value) (w : World) (t : Tree) :
    (load none timeout { w with tree := t }).1 = (load none timeout w).1 := by
  have hask (w : World) : ask defaultAddress timeout w =
      (.ok ((lookup? defaultAddress w.replies).getD (.failed ("unreachable: " ++ defaultAddress))),
        { w with requests := w.requests ++ [(defaultAddress, timeout)] }) := rfl
  unfold load download addressOf
  dsimp only
  rw [bind_of_ok (inform_eq _ _), bind_of_ok (hask _), bind_of_ok (inform_eq _ _),
    bind_of_ok (hask _)]
  dsimp only [World.noting]
  cases replyDocument ((lookup? defaultAddress w.replies).getD
    (.failed ("unreachable: " ++ defaultAddress))) with
  | error e => rfl
  | ok document =>
    exact keep_tree document defaultAddress
      { w.noting .info .download ("Downloading OpenAPI spec from: " ++ defaultAddress) with
        requests := w.requests ++ [(defaultAddress, timeout)] } t

/-- So is the document of a generation. -/
theorem Loads.of_tree {document : Value} (hsource : g.source = none) (h : Loads g w document)
    (t : Tree) : Loads g { w with tree := t } document := by
  obtain ⟨loaded, v, hload, hdocument⟩ := h
  have hsame := load_tree g.timeout (begun w) t
  rw [← hsource, hload] at hsame
  exact ⟨loaded, (load g.source g.timeout (begun { w with tree := t })).2, Prod.ext hsame rfl,
    hdocument⟩

/-- **A generation returns after another one** from the same document on the network, if each of
    them has a version document of its own. -/
theorem generate_plain_twice {document : Value} (g : Generation) (names : List String)
    (version : Path) (hg : g.renderer = .standard) (hlabel : Remark g.nodeLabel.toList)
    (hdocument : PlainDocument document) (hsource : g.source = none) (hloads : Loads g w document)
    (hextract : (Api.extract g.config document).toOption.map (·.map (·.fileName)) = some names)
    (hcount : isLongInteger names.length = false) (hnull : g.output.hasNull = false)
    (hs : (nodeSite g names [version]).Layout)
    (hs' : (nodeSite { g with versionFile := version } names []).Layout)
    (hversion : ¬IsGenerated (g.output.location []) (version.location []))
    (hshared : version.location [] ≠ sharedLocation (g.output.location []))
    (h : (nodeSite g names [version]).Unrecorded w)
    (habsent : w.files (version.location []) = none) :
    ∃ earlier v outcome a', generate g w = (.ok earlier, v) ∧ v.current = w.current ∧
      generate { g with versionFile := version } { w with tree := v.tree } = (.ok outcome, a') := by
  have hcurrent : w.current = [] := h.current
  obtain ⟨earlier, v, hearlier, hroomy⟩ := generate_plain_returns g names [version] hg hlabel
    hdocument hloads hextract hcount hnull hs h
  have hother : v.files (version.location []) = none := by
    rw [← habsent]
    refine files_of_generate (hg ▸ regular_standard) h.sound hearlier ?_ ?_ ?_ <;> rw [hcurrent]
    · exact hversion
    · exact hshared
    · exact (hs.own version (List.mem_append_right _ (List.mem_singleton.mpr rfl))).symm
  -- what the later generation needs room for, the earlier one has left room for
  have hroom : (nodeSite { g with versionFile := version } names []).Unrecorded
      { w with tree := v.tree } := by
    refine ⟨⟨⟨hroomy.sound.tree, ?_⟩, h.denied, h.top, hcurrent, fun p hp => ?_, hroomy.clear⟩,
      hother⟩
    · rw [hcurrent]
      rfl
    · refine (hroomy.room p (Site.mem_all ?_)).of_tree rfl (hcurrent.trans hroomy.current.symm)
      rcases List.mem_cons.mp hp with rfl | hp
      · exact List.mem_append_right _ (List.mem_singleton.mpr rfl)
      · exact List.mem_append_left _ ((List.mem_append.mp hp).resolve_right List.not_mem_nil)
  obtain ⟨outcome, a', hrun, -⟩ := generate_plain_returns { g with versionFile := version } names []
    hg hlabel hdocument (hloads.of_tree hsource v.tree) hextract hcount hnull hs' hroom
  exact ⟨earlier, v, outcome, a', hearlier, hroomy.current.trans hcurrent.symm, hrun⟩

/-- A generation whose version document stands beside that of another one. -/
def earlierGeneration : Generation where
  output := .ofString "node"
  versionFile := .ofString "earlier.json"

theorem generate_forgets_hostileWorld :
    ∃ earlier v outcome a', generate earlierGeneration hostileWorld = (.ok earlier, v) ∧
      generate { output := .ofString "node" } { hostileWorld with tree := v.tree } =
        (.ok outcome, a') ∧
      ∀ l, IsGenerated ["node"] l →
        (generate { output := .ofString "node" } hostileWorld).2.files l = a'.files l := by
  have hloads {g : Generation} (hsource : g.source = none) (htimeout : g.timeout = .null) :
      Loads g hostileWorld hostileDocument := (loads_hostileWorld_iff hsource htimeout).mpr rfl
  have hs : (nodeSite earlierGeneration ["u"] [defaultVersionFile]).Layout := by decide +kernel
  obtain ⟨earlier, v, outcome, a', hearlier, hcurrent, hrun⟩ := generate_plain_twice
    earlierGeneration ["u"] defaultVersionFile rfl remark_defaultLabel plainDocument_hostileDocument
    rfl (hloads rfl rfl) (by decide +kernel) (by decide +kernel) (by decide +kernel) hs
    (by decide +kernel) (by decide +kernel) (by decide +kernel)
    (unrecorded_of_free hs sound_hostileWorld.tree rfl rfl rfl rfl (by decide +kernel)
      (by decide +kernel)) rfl
  have hlater : Loads { output := .ofString "node" } hostileWorld hostileDocument := hloads rfl rfl
  obtain ⟨loaded, va, hloada, hdocument⟩ := hlater.of_tree rfl v.tree
  obtain ⟨loaded', vb, hloadb, hdocument'⟩ := hlater
  have hhistory : History (.ofString "node") hostileWorld v := by
    have hstep : History (.ofString "node") hostileWorld
        (generate earlierGeneration hostileWorld).2 := .run .start ⟨rfl, rfl⟩ earlierGeneration rfl
    rwa [hearlier] at hstep
  have hresumes : Resumes v { hostileWorld with tree := v.tree } := ⟨rfl, hcurrent.symm⟩
  refine ⟨earlier, v, outcome, a', hearlier, hrun, ?_⟩
  exact (generate_forgets sound_hostileWorld (Tree.backs_of_onward (by decide +kernel))
    regular_standard rfl (by decide +kernel) hhistory hresumes ⟨rfl, rfl⟩ rfl rfl hloada hloadb
    (hdocument'.trans hdocument.symm) hrun).1

end ApiNodes.Run
