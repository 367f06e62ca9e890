import ApiNodes.Proofs.Run.Repetition

namespace ApiNodes.Run

open Api (PlainDocument)
open Files (Location Path Tree)

/-!
# Files that are left over

Old files are looked for before a generation makes any folders.  If the path of its output steps
back out of a folder that is missing, it does not lead to the folders of the node at that time, and
the old files in them stay.  The generation makes the missing folder, so that the next one clears
them away.

* `generate_leaves` — a generation that does not find the folders of its node;
* `generate_backs` — one that returns makes the folders that its output steps back out of;
* `generate_remembers_leftoverWorld` — a file that the first of two generations leaves and the
  second one clears away.
-/

variable {g : Generation} {w w' : World} {l : Location} {outcome : Outcome}

/-- **What a generation does not find it leaves.**  If the paths of the two folders of a node do not
    lead to them, a generation that returns changes no resource file but those that it lists. -/
theorem generate_leaves (hw : w.Sound)
    (hhandlers : w.tree.entry w.current (place g.output "resources/handlers") ≠ .ok .folder)
    (hproperties : w.tree.entry w.current (place g.output "properties") ≠ .ok .folder)
    (hversion : ¬g.output.location w.current <+: g.versionFile.location w.current)
    (hrun : generate g w = (.ok outcome, w'))
    (hl : IsResourceFile (g.output.location w.current) l)
    (hother : ∀ p ∈ outcome.files, l ≠ p.location w.current) : w'.files l = w.files l := by
  obtain ⟨loaded, v, found, u, hstart, hprepare, hfiles, -, hkept⟩ := exists_prepare hw hrun
  obtain ⟨v', written, hclear, hoverlays, -, hpaths⟩ := prepare_returned hprepare
  rw [← hstart.tree, ← hstart.current] at hhandlers hproperties
  have hstill := still_clearNode hhandlers hproperties hclear
  calc w'.files l = u.files l := hkept hversion l (.inl hl)
    _ = v'.files l := by
      rw [hoverlays.files]
      refine overlay_of_forall_ne fun file hfile => ?_
      rw [hstill.current, hstart.current]
      refine hother _ (hfiles ?_)
      rw [hpaths]
      exact List.mem_map_of_mem (f := fun file : String × String => place g.output file.1) hfile
    _ = w.files l := by rw [hstill.paves.files, hstart.paves.files]

/-- **A generation that returns makes the folders** that its output steps back out of. -/
theorem generate_backs (hw : w.Sound) (hg : g.renderer.Regular)
    (hregistry : g.config.updateRegistry = true) (hrun : generate g w = (.ok outcome, w')) :
    w'.tree.Backs (g.output.origin w'.current) g.output.names := by
  obtain ⟨loaded, v, found, u, -, hprepare, -, hcontinues, -⟩ := exists_prepare hw hrun
  obtain ⟨v', written, -, hoverlays, hbatches, -⟩ := prepare_returned hprepare
  obtain ⟨file, hfile, hname⟩ := exists_registry_file hg hregistry hbatches propertyRegistryPath_mem
  have hway := ((hoverlays.reaches file hfile).continues hcontinues).way
  rw [hname, place,
    Path.join_of_current (leads_of_mem_registryNames propertyRegistryPath_mem).anchor] at hway
  exact hway.backs

/-! ### An output that steps back -/

/-- A document without resources. -/
def bareDocument : Value := .object [("paths", .object [])]

/-- Where an old properties file stands. -/
def oldLocation : Location := ["b", "properties", "old-properties.ts"]

/-- A world with the file, in which the network has the document. -/
def leftoverWorld : World where
  tree := { entries :=
    [(["b"], .folder), (["b", "properties"], .folder), (oldLocation, .file "// old".toUTF8)] }
  replies := [(defaultAddress, .answered 200 none "\x7b\x22paths\x22:\x7b\x7d\x7d")]

/-- The node of the file, by a path that steps back out of a folder that is missing. -/
def backwardPath : Path := .ofString "a/../b"

/-- A generation into the node that has a version document of its own. -/
def backwardGeneration : Generation where
  output := backwardPath
  versionFile := .ofString "earlier.json"

theorem plainDocument_bareDocument : PlainDocument bareDocument where
  paths := fun _ hc => absurd hc List.not_mem_nil
  queries := fun _ hc => absurd hc List.not_mem_nil

theorem loads_leftoverWorld (hsource : g.source = none) (htimeout : g.timeout = .null) :
    Loads g leftoverWorld bareDocument :=
  loads_of_network hsource htimeout <|
    map_document_load rfl (by decide +kernel) (by cbv) (by decide +kernel)

theorem sound_leftoverWorld : leftoverWorld.Sound := by
  refine ⟨Tree.sound_of_entries fun entry hentry => ?_, rfl⟩
  simp only [leftoverWorld, List.mem_cons, List.not_mem_nil, or_false] at hentry
  rcases hentry with rfl | rfl | rfl <;> exact ⟨rfl, by decide⟩

theorem location_backwardPath : backwardPath.location [] = ["b"] := by decide +kernel

/-- The path does not lead to the folders of the node. -/
theorem entry_backwardPath {name : String} (h : Leads name) :
    leftoverWorld.tree.entry [] (place backwardPath name) ≠ .ok .folder := by
  intro hentry
  have hway := (Tree.entry_eq_ok_iff.mp hentry).2.1
  rw [place, Path.join_of_current h.anchor] at hway
  have hmissing : leftoverWorld.tree.at? (Files.plainLocation (backwardPath.origin []) ["a"]) =
      some .folder := hway.backs ["a"] (by decide +kernel)
  have hnone : (leftoverWorld.tree.at?
      (Files.plainLocation (backwardPath.origin []) ["a"])).isNone := by decide +kernel
  rw [hmissing] at hnone
  cases hnone

/-- A generation into the node with the standard renderer, from the document on the network. -/
structure Backward (g : Generation) : Prop where
  output : g.output = backwardPath
  config : g.config = {}
  renderer : g.renderer = .standard
  version : ¬["b"] <+: g.versionFile.location []
  source : g.source = none
  timeout : g.timeout = .null

/-- It does not write the old file. -/
theorem Backward.oldLocation_ne (hg : Backward g) (hw : w.Sound) (hcurrent : w.current = [])
    (hloads : Loads g w bareDocument) (hrun : generate g w = (.ok outcome, w')) :
    ∀ p ∈ outcome.files, oldLocation ≠ p.location [] := by
  obtain ⟨document, resources, written, hloads', hextract, hfinished⟩ :=
    finished_of_generate hw hrun
  obtain rfl := hloads'.unique hloads
  have hnone : resources = [] := by
    have hnames : (Api.extract {} bareDocument).toOption.map (·.length) = some 0 := by
      decide +kernel
    rw [← hg.config, hextract] at hnames
    exact List.length_eq_zero_iff.mp (Option.some.inj hnames)
  intro p hp heq
  have hlocation := hfinished.location_of_mem (hg.renderer ▸ regular_standard) hp
  rw [hnone, hcurrent, ← heq, hg.output, location_backwardPath] at hlocation
  rcases hlocation with ⟨r, hr, -⟩ | hregistry | hshared
  · cases hr
  · exact absurd hregistry (by decide)
  · exact absurd hshared (by decide)

/-- The file stays if the generation is the first one. -/
theorem Backward.isSome_oldLocation (hg : Backward g)
    (hrun : generate g leftoverWorld = (.ok outcome, w')) : (w'.files oldLocation).isSome := by
  have hcurrent : leftoverWorld.current = [] := rfl
  have hkept : w'.files oldLocation = leftoverWorld.files oldLocation := by
    refine generate_leaves sound_leftoverWorld ?_ ?_ ?_ hrun ?_ ?_ <;> rw [hcurrent]
    · exact hg.output ▸ entry_backwardPath leads_handlers
    · exact hg.output ▸ entry_backwardPath leads_properties
    · rw [hg.output, location_backwardPath]
      exact hg.version
    · rw [hg.output, location_backwardPath]
      decide
    · have hloads := loads_leftoverWorld hg.source hg.timeout
      exact hg.oldLocation_ne sound_leftoverWorld rfl hloads hrun
  rw [hkept]
  rfl

/-- It is cleared away if the generation comes after another one. -/
theorem Backward.oldLocation_eq_none (hg : Backward g) {t : Tree} (ht : t.Sound)
    (hbacks : t.Backs (backwardPath.origin []) backwardPath.names)
    (hrun : generate g { leftoverWorld with tree := t } = (.ok outcome, w')) :
    w'.files oldLocation = none := by
  have hw : World.Sound { leftoverWorld with tree := t } := ⟨ht, rfl⟩
  have hloads := (loads_leftoverWorld hg.source hg.timeout).of_tree hg.source t
  by_contra hsome
  obtain ⟨p, hp, heq⟩ : ∃ p ∈ outcome.files, oldLocation = p.location [] := by
    refine generate_cleans hw rfl (hg.renderer ▸ regular_standard) (hg.config ▸ rfl)
      (hg.output ▸ hbacks) ?_ hrun ?_ (Option.isSome_iff_ne_none.mpr hsome)
    · rw [hg.output]
      exact location_backwardPath ▸ hg.version
    · rw [hg.output]
      exact location_backwardPath ▸ (by decide)
  exact hg.oldLocation_ne hw rfl hloads hrun p hp heq

/-- **A generation remembers** what an earlier one has made: as the first one it leaves the old file
    of the node, and after another one it clears the file away. -/
theorem generate_remembers_leftoverWorld :
    ∃ earlier v first b' outcome a', generate backwardGeneration leftoverWorld = (.ok earlier, v) ∧
      generate { output := backwardPath } leftoverWorld = (.ok first, b') ∧
      generate { output := backwardPath } { leftoverWorld with tree := v.tree } =
        (.ok outcome, a') ∧
      IsResourceFile (backwardPath.location []) oldLocation ∧
      b'.files oldLocation ≠ a'.files oldLocation := by
  have hs : (nodeSite backwardGeneration [] [defaultVersionFile]).Layout := by decide +kernel
  obtain ⟨earlier, v, outcome, a', hearlier, hcurrent, hrun⟩ := generate_plain_twice
    backwardGeneration [] defaultVersionFile rfl remark_defaultLabel plainDocument_bareDocument rfl
    (loads_leftoverWorld rfl rfl) (by decide +kernel) (by decide +kernel) (by decide +kernel) hs
    (by decide +kernel) (by decide +kernel) (by decide +kernel)
    (unrecorded_of_free hs sound_leftoverWorld.tree rfl rfl rfl rfl (by decide +kernel)
      (by decide +kernel)) rfl
  have hs' : (nodeSite { output := backwardPath } [] []).Layout := by decide +kernel
  obtain ⟨first, b', hfirst, -⟩ := generate_plain_returns { output := backwardPath } [] [] rfl
    remark_defaultLabel plainDocument_bareDocument (loads_leftoverWorld rfl rfl) (by decide +kernel)
    (by decide +kernel) (by decide +kernel) hs'
    (unrecorded_of_free hs' sound_leftoverWorld.tree rfl rfl rfl rfl (by decide +kernel)
      (by decide +kernel))
  have hbackward : Backward { output := backwardPath } :=
    ⟨rfl, rfl, rfl, by decide +kernel, rfl, rfl⟩
  have hbacks := generate_backs sound_leftoverWorld regular_standard rfl hearlier
  rw [hcurrent] at hbacks
  have hsound :=
    (survives_generate sound_leftoverWorld backwardGeneration).sound sound_leftoverWorld
  rw [hearlier] at hsound
  refine ⟨earlier, v, first, b', outcome, a', hearlier, hfirst, hrun, by decide +kernel, ?_⟩
  rw [hbackward.oldLocation_eq_none hsound.tree hbacks hrun]
  exact Option.isSome_iff_ne_none.mp (hbackward.isSome_oldLocation hfirst)

end ApiNodes.Run
