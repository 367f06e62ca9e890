import ApiNodes.Proofs.Run.Course
import ApiNodes.Proofs.Run.Progress
import ApiNodes.Proofs.Run.Versions

namespace ApiNodes.Run

open Api (PlainDocument PlainResource plainResource_of_mem)
open Artifact (handlerText_sound propertiesText_sound registryFiles_sound sharedHandlerText_sound)
open Files (Location Path Tree)
open Typescript (Remark review review_eq_nil)

/-!
# Generations that return

A generation returns if its document is loaded, its batches are sound, and there is room for its
files: none of them stands on the way to another, and nothing that is there stands in their way.
One file after the other is written then, and the room for the others stays (`Succeeds`).

* `succeeds_writeBatches`, `succeeds_ensureShared`, `recordComponent_returns` — the steps;
* `generate_returns` — the whole run;
* `generate_plain_returns` — what a plain document needs.
-/

variable {α β : Type} {w v w' : World} {p q : Path} {l : Location} {g : Generation}
  {loaded : Loaded} {resources : List Api.Resource} {files : List (String × String)}
  {folder output : Path} {content : String}

/-! ### Room -/

/-- Where a node is generated: its output, where paths start, its version document, and the paths
    of the other files that room is kept for. -/
structure Site where
  output : Path
  top : String
  here : Location
  version : Path
  paths : List Path

variable {s : Site}

/-- All paths that room is kept for. -/
def Site.all (s : Site) : List Path := s.version :: s.paths

/-- The paths of the other files. -/
theorem Site.mem_all (h : p ∈ s.paths) : p ∈ s.all := List.mem_cons_of_mem _ h

/-- None of the paths stands on the way to another, and the version document is apart from the
    other files.  What comes to stand at the place of a resource file can be cleared away. -/
structure Site.Layout (s : Site) : Prop where
  apart : ∀ p ∈ s.all, ∀ q ∈ s.all, ¬OnWay q.parent s.here (p.location s.here)
  own : ∀ p ∈ s.paths, s.version.location s.here ≠ p.location s.here
  clear : ∀ p ∈ s.all, ∀ k ∈ p.names.inits,
    IsResourceFile (s.output.location s.here) (Files.plainLocation (p.origin s.here) k) →
      Removable s.output s.here (Files.plainLocation (p.origin s.here) k)

instance (s : Site) : Decidable s.Layout :=
  decidable_of_iff (_ ∧ _ ∧ _)
    ⟨fun ⟨hapart, hown, hclear⟩ => ⟨hapart, hown, hclear⟩,
      fun ⟨hapart, hown, hclear⟩ => ⟨hapart, hown, hclear⟩⟩

/-- A world with room for the files. -/
structure Site.Roomy (s : Site) (w : World) : Prop where
  sound : w.Sound
  denied : w.denied.write = []
  top : w.top = s.top
  current : w.current = s.here
  room : ∀ p ∈ s.all, Room p w
  clear : ∀ l, IsResourceFile (s.output.location s.here) l → (w.tree.at? l).isSome →
    Removable s.output s.here l

/-- A world with room for the files, in which no version was recorded yet. -/
structure Site.Unrecorded (s : Site) (w : World) : Prop extends s.Roomy w where
  absent : w.files (s.version.location s.here) = none

/-- There is room for a file in the tree that another world has. -/
theorem Room.of_tree (h : Room p w) (htree : w'.tree = w.tree) (hcurrent : w'.current = w.current) :
    Room p w' := by
  obtain ⟨hnull, husable, hlast, hopen, hfree, hapart⟩ := h
  rw [← htree, ← hcurrent] at hopen hfree
  rw [← htree] at husable
  rw [← hcurrent] at hapart
  exact ⟨hnull, husable, hlast, hopen, hfree, hapart⟩

/-- There is room where nothing was done. -/
theorem Site.Roomy.still (h : s.Roomy w) (hw : Still w w') : s.Roomy w' where
  sound := hw.paves.toContinues.soundWorld h.sound
  denied := by rw [hw.denied, h.denied]
  top := hw.top.trans h.top
  current := hw.current.trans h.current
  room p hp := (h.room p hp).of_tree hw.tree hw.current
  clear l hl hsome := h.clear l hl (by rwa [← hw.tree])

/-- Nothing is recorded where nothing was done. -/
theorem Site.Unrecorded.still (h : s.Unrecorded w) (hw : Still w w') : s.Unrecorded w' :=
  ⟨h.toRoomy.still hw, by rw [hw.paves.files, h.absent]⟩

/-- There is room where files were removed. -/
theorem Site.Unrecorded.clears {W : Location → Location → Prop} (h : s.Unrecorded w)
    (hw : Clears W w w') : s.Unrecorded w' where
  sound := hw.soundWorld h.sound
  denied := by rw [hw.denied, h.denied]
  top := hw.top.trans h.top
  current := hw.current.trans h.current
  room p hp := by
    obtain ⟨hnull, husable, hlast, hopen, hfree, hapart⟩ := h.room p hp
    rw [← hw.current] at hopen hfree hapart
    exact ⟨hnull, hw.whole ▸ husable, hlast, fun k hk => hw.files_eq_none (hopen k hk),
      fun hfolder => hfree (hw.grounds _ hfolder), hapart⟩
  clear l hl hsome := h.clear l hl (hw.isSome_at? hsome)
  absent := hw.files_eq_none h.absent

/-- **There is room for a file** after another one was written, if neither stands on the way to the
    other. -/
theorem Room.write (h : Room p w) (hapart : ¬OnWay p.parent w.current (q.location w.current))
    (hapart' : ¬OnWay q.parent w.current (p.location w.current))
    (hrun : writeArtifact q content w = (.ok q, w')) : Room p w' := by
  rcases writeArtifact_cases hrun with ⟨e, he, -⟩ | ⟨-, -, hcontinues, hfiles⟩
  · cases he
  obtain ⟨hnull, husable, hlast, hopen, hfree, hown⟩ := h
  refine ⟨hnull, hcontinues.whole.symm ▸ husable, hlast, fun k hk => ?_, fun hfolder => ?_,
    hcontinues.current.symm ▸ hown⟩
  · have hne : Files.plainLocation (p.origin w.current) k ≠ q.location w.current := fun heq =>
      hapart ⟨k, hk, heq.symm⟩
    have hview := congrFun hfiles (Files.plainLocation (p.origin w.current) k)
    rw [Function.update_of_ne hne] at hview
    rw [hcontinues.current]
    exact hview.trans (hopen k hk)
  · rw [hcontinues.current, folder_iff_of_writeArtifact hrun] at hfolder
    exact hfolder.elim hfree hapart'

/-- **There is room for the other files** when one was written. -/
theorem Site.Roomy.write (hs : s.Layout) (h : s.Roomy w) (hq : q ∈ s.all)
    (hrun : writeArtifact q content w = (.ok q, w')) : s.Roomy w' := by
  rcases writeArtifact_cases hrun with ⟨e, he, -⟩ | ⟨-, -, hcontinues, hfiles⟩
  · cases he
  refine ⟨hcontinues.soundWorld h.sound, by rw [hcontinues.denied, h.denied],
    hcontinues.top.trans h.top, hcontinues.current.trans h.current, fun p hp => ?_,
    fun l hl hsome => ?_⟩
  · refine (h.room p hp).write ?_ ?_ hrun <;> rw [h.current]
    · exact hs.apart q hq p hp
    · exact hs.apart p hp q hq
  -- what stands there was there before, or is the file or a folder on the way to it
  have hway {k : List String} (hk : k <+: q.names)
      (heq : l = Files.plainLocation (q.origin s.here) k) : Removable s.output s.here l := by
    subst heq
    exact hs.clear q hq k ((List.mem_inits _ _).mpr hk) hl
  by_cases hfolder : w'.tree.at? l = some .folder
  · rcases (folder_iff_of_writeArtifact hrun).mp hfolder with hfolder | ⟨k, hk, heq⟩
    · exact h.clear l hl (by rw [hfolder]; rfl)
    · exact hway (hk.trans (List.dropLast_prefix _)) (h.current ▸ heq)
  by_cases heq : l = q.location w.current
  · exact hway List.prefix_rfl (h.current ▸ heq)
  refine h.clear l hl ?_
  by_contra hnone
  have hfile : w.files l = none := by
    rw [World.files, Tree.file?, Option.not_isSome_iff_eq_none.mp hnone]
  rw [Tree.at?_eq_none (by rw [← World.files, hfiles, Function.update_of_ne heq, hfile]) hfolder]
    at hsome
  cases hsome

/-- No version is recorded by writing another file. -/
theorem Site.Unrecorded.write (hs : s.Layout) (h : s.Unrecorded w) (hq : q ∈ s.paths)
    (hrun : writeArtifact q content w = (.ok q, w')) : s.Unrecorded w' := by
  refine ⟨h.toRoomy.write hs (s.mem_all hq) hrun, ?_⟩
  rcases writeArtifact_cases hrun with ⟨e, he, -⟩ | ⟨-, -, -, hfiles⟩
  · cases he
  rw [hfiles, h.current, Function.update_of_ne (hs.own q hq), h.absent]

/-! ### Computations -/

/-- A computation that returns where there is room for files, and leaves the room. -/
def Site.Succeeds (s : Site) (m : Run α) : Prop :=
  ∀ w, s.Unrecorded w → ∃ x w', m w = (.ok x, w') ∧ s.Unrecorded w'

/-- A value. -/
theorem succeeds_pure (x : α) : s.Succeeds (pure x) := fun w h => ⟨x, w, rfl, h⟩

/-- One computation after another, for what the first one returns. -/
theorem Site.Succeeds.bind {m : Run α} {f : α → Run β} (hm : s.Succeeds m)
    (hf : ∀ w x w', m w = (.ok x, w') → s.Succeeds (f x)) : s.Succeeds (m >>= f) := by
  intro w h
  obtain ⟨x, v, hrun, hv⟩ := hm w h
  obtain ⟨y, w', hnext, hw'⟩ := hf w x v hrun v hv
  exact ⟨y, w', bind_eq_ok_iff.mpr ⟨x, v, hrun, hnext⟩, hw'⟩

/-- Writing to the log. -/
theorem succeeds_record (level : Level) (origin : Origin) (message : String) :
    s.Succeeds (record level origin message) :=
  fun w h => ⟨_, _, rfl, h.still (still_noting w level origin message)⟩

/-- Rendering. -/
theorem succeeds_rendered (x : α) : s.Succeeds (rendered (.ok x)) := succeeds_pure x

/-- The review of a sound batch. -/
theorem succeeds_requireSound (h : review files = []) : s.Succeeds (requireSound files) := by
  rw [requireSound, h]
  exact succeeds_pure ()

/-- The extraction of resources. -/
theorem succeeds_extractResources {config : Api.Config} {document : Value}
    (h : Api.extract config document = .ok resources) :
    s.Succeeds (extractResources config document) := by
  have hrecord (renamed : List (Api.Endpoint × String)) : s.Succeeds (recordRenamings renamed) := by
    induction renamed with
    | nil => exact succeeds_pure ()
    | cons first rest ih => exact (succeeds_record _ _ _).bind fun _ _ _ _ => ih
  unfold extractResources
  rw [h]
  exact (hrecord _).bind fun _ _ _ _ => succeeds_pure _

/-- Writing a file. -/
theorem succeeds_writeArtifact (hs : s.Layout) (hp : p ∈ s.paths) (content : String) :
    s.Succeeds (writeArtifact p content) := by
  intro w h
  obtain ⟨w', hrun⟩ := writeArtifact_returns content h.sound (by simp [h.denied])
    (h.room p (s.mem_all hp))
  exact ⟨p, w', hrun, h.write hs hp hrun⟩

/-- Writing files one after the other. -/
theorem succeeds_writeArtifacts (hs : s.Layout) (origin : Origin) (announce : String)
    (h : ∀ file ∈ files, place folder file.1 ∈ s.paths) :
    s.Succeeds (writeArtifacts folder origin announce files) := by
  induction files with
  | nil => exact succeeds_pure []
  | cons file files ih =>
    rw [List.forall_mem_cons] at h
    exact (succeeds_writeArtifact hs h.1 _).bind fun _ _ _ _ =>
      (succeeds_record _ _ _).bind fun _ _ _ _ => (ih h.2).bind fun _ _ _ _ => succeeds_pure _

/-- A sound batch with room for its files. -/
def Batch.Ready (output : Path) (paths : List Path) (batch : Batch) : Prop :=
  ∃ files, batch = .ok files ∧ review files = [] ∧ ∀ file ∈ files, place output file.1 ∈ paths

/-- Writing a batch. -/
theorem Batch.Ready.succeeds {batch : Batch} (h : batch.Ready output s.paths)
    {m : List (String × String) → Run β}
    (hm : ∀ files, (∀ file ∈ files, place output file.1 ∈ s.paths) → s.Succeeds (m files)) :
    s.Succeeds (do let files ← rendered batch; requireSound files; m files) := by
  obtain ⟨files, rfl, hsound, hfiles⟩ := h
  refine (succeeds_rendered files).bind fun _ found _ hfound => ?_
  cases hfound
  exact (succeeds_requireSound hsound).bind fun _ _ _ _ => hm files hfiles

/-- **Writing the batches of a node.** -/
theorem succeeds_writeBatches (hs : s.Layout)
    (h : ∀ batch ∈ batches g resources, Batch.Ready g.output s.paths batch) :
    s.Succeeds (writeBatches g resources) := by
  have hresources : ∀ resources : List Api.Resource,
      (∀ r ∈ resources, Batch.Ready g.output s.paths (resourceFiles g r)) →
      s.Succeeds (generateResources g resources) := by
    intro resources
    induction resources with
    | nil => exact fun _ => succeeds_pure []
    | cons r rs ih =>
      intro h
      rw [List.forall_mem_cons] at h
      have hfirst : s.Succeeds (generateResource g r) :=
        (succeeds_record _ _ _).bind fun _ _ _ _ =>
          h.1.succeeds fun _ => succeeds_writeArtifacts hs _ _
      exact hfirst.bind fun _ _ _ _ => (ih h.2).bind fun _ _ _ _ => succeeds_pure _
  unfold batches at h
  rw [List.forall_mem_append] at h
  refine (hresources resources fun r hr => h.1 _ (List.mem_map_of_mem hr)).bind fun _ _ _ _ => ?_
  split
  · rename_i hregistry
    have hlast : s.Succeeds (writeLastBatch g resources) := by
      refine (h.2 _ (by simp [hregistry])).succeeds fun files hfiles => ?_
      exact (succeeds_record _ _ _).bind fun _ _ _ _ => succeeds_writeArtifacts hs _ _ hfiles
    exact hlast.bind fun _ _ _ _ => succeeds_pure _
  · exact (succeeds_pure _).bind fun _ _ _ _ => succeeds_pure _

/-! ### After the batches -/

/-- A question about a usable path is answered. -/
theorem isThere_returns (h : p.Usable w.tree.whole) : ∃ there, isThere p w = (.ok there, w) := by
  cases hfound : entryAt? p w with
  | mk found v =>
  obtain ⟨rfl, rfl | ⟨e, rfl, -⟩ | ⟨refusal, -, hunusable⟩⟩ := entryAt?_cases hfound
  · exact ⟨_, bind_eq_ok_iff.mpr ⟨_, _, hfound, rfl⟩⟩
  · exact ⟨_, bind_eq_ok_iff.mpr ⟨_, _, hfound, rfl⟩⟩
  · exact absurd h hunusable

/-- Writing the shared interface. -/
theorem succeeds_ensureShared (hs : s.Layout) {renderer : Renderer}
    (hnull : output.hasNull = false) (hrendered : renderer.shared = .ok content)
    (hinterface : (output.join (.ofString sharedName)).resolved s.top s.here ∈ s.paths) :
    s.Succeeds (ensureShared renderer output) := by
  intro w h
  have hpath : sharedPath output w =
      (.ok ((output.join (.ofString sharedName)).resolved s.top s.here), w) := by
    unfold sharedPath checkNull
    rw [hnull]
    show ((get : Run World) >>= fun w =>
      pure ((output.join (.ofString sharedName)).resolved w.top w.current)) w = _
    rw [get_bind, h.top, h.current]
    rfl
  unfold ensureShared
  rw [bind_of_ok hpath]
  -- all that is used of the path is that there is room for its file
  generalize (output.join (.ofString sharedName)).resolved s.top s.here = q at hinterface ⊢
  obtain ⟨there, hthere⟩ := isThere_returns (h.room _ (s.mem_all hinterface)).usable
  rw [bind_of_ok hthere]
  have hwrite : s.Succeeds (do
      let content ← rendered renderer.shared
      let _ ← writeArtifact q content
      inform .registry ("  Created " ++ q.text)
      return some q) := by
    rw [hrendered]
    exact (succeeds_rendered content).bind fun _ _ _ _ =>
      (succeeds_writeArtifact hs hinterface _).bind fun _ _ _ _ =>
        (succeeds_record _ _ _).bind fun _ _ _ _ => succeeds_pure _
  cases there with
  | true => exact ⟨none, w, rfl, h⟩
  | false => exact hwrite w h

/-- The clock is read. -/
theorem stampNow_returns (w : World) : ∃ now w', stampNow w = (.ok now, w') := by
  have htick : ∃ now w', tick w = (.ok now, w') := by
    unfold tick
    rw [get_bind]
    rcases w.clock with _ | ⟨now, _ | ⟨later, rest⟩⟩ <;> exact ⟨_, _, rfl⟩
  obtain ⟨now, w', htick⟩ := htick
  exact ⟨_, w', bind_eq_ok_iff.mpr ⟨now, w', htick, rfl⟩⟩

/-- Where there is no version document, none is read. -/
theorem versionsOrFresh_returns (habsent : w.files (p.location w.current) = none)
    (hnull : p.hasNull = false) (source : ApiSource) :
    ∃ stamp w', versionsOrFresh p source w = (.ok (freshVersions source stamp), w') := by
  -- a document that is not there is not read, whatever the refusal
  have hread : readVersions p w = (.ok none, w) := by
    have hcontent : ∃ refusal, fileContent p w = (.error (.file refusal), w) := by
      unfold fileContent checkNull
      rw [hnull]
      show ∃ refusal, ((get : Run World) >>= fun w =>
        orRefuse p (w.tree.fileContent w.current p)) w = _
      rw [get_bind]
      cases hfile : w.tree.fileContent w.current p with
      | error fault => exact ⟨_, rfl⟩
      | ok data =>
        rw [World.files, Tree.file?_of_fileContent hfile] at habsent
        cases habsent
    obtain ⟨refusal, hcontent⟩ := hcontent
    have hattempt : attempt (fileContent p) w = (.ok (.error refusal), w) := by
      rw [attempt, hcontent]
    unfold readVersions
    rw [hnull]
    simp only [Bool.false_eq_true, if_false]
    rw [bind_of_ok hattempt]
    rfl
  obtain ⟨now, v, hstamp⟩ := stampNow_returns w
  unfold versionsOrFresh
  rw [bind_of_ok hread]
  exact ⟨now, v, bind_eq_ok_iff.mpr ⟨now, v, hstamp, rfl⟩⟩

/-- **Recording a version** that was not recorded before. -/
theorem recordComponent_returns (hs : s.Layout) (h : s.Unrecorded w) {metadata : Entries}
    (hmetadata : WritableEntries metadata) (component : String) (source : ApiSource) :
    ∃ entries w', recordComponent s.version component source metadata w = (.ok entries, w') ∧
      s.Roomy w' := by
  have hversion : s.version ∈ s.all := List.mem_cons_self
  have h₀ := h.still (still_noting w .info .versions
    ("Updating version info for " ++ component ++ "..."))
  obtain ⟨stamp, w₁, hfresh⟩ := versionsOrFresh_returns (by rw [h₀.current, h₀.absent])
    (h.room _ hversion).null source
  have h₁ := h₀.still (still_versionsOrFresh _ _ _ _ _ hfresh)
  obtain ⟨updated, w₂, hupdated⟩ := stampNow_returns w₁
  have h₂ := h₁.still (still_stampNow _ _ _ hupdated)
  obtain ⟨generated, w₃, hgenerated⟩ := stampNow_returns w₂
  have h₃ := h₂.still (still_stampNow _ _ _ hgenerated)
  obtain ⟨text, htext⟩ := exists_versionsText hmetadata source stamp updated generated component
  obtain ⟨w₄, hrun⟩ := writeArtifact_returns text h₃.sound (by simp [h₃.denied])
    (h₃.room _ hversion)
  obtain ⟨-, v, hmade, hwrite⟩ := writeArtifact_eq_ok_iff.mp hrun
  refine ⟨withComponent (freshVersions source stamp) source updated component
    (componentRecord metadata generated), w₄.noting .info .versions
    ("Updated version info: " ++ component ++ " generated from API " ++ source.version), ?_,
    (h₃.toRoomy.write hs hversion hrun).still (still_noting _ _ _ _)⟩
  unfold recordComponent
  rw [bind_of_ok (inform_eq _ _), bind_of_ok hfresh, bind_of_ok hupdated, bind_of_ok hgenerated,
    bind_of_ok hmade]
  simp only [htext]
  rw [bind_of_ok hwrite, bind_of_ok (inform_eq _ _)]
  rfl

/-! ### Runs -/

/-- Removing a scratch copy returns. -/
theorem dropScratch_returns (number : Nat) (w : World) :
    ∃ w', dropScratch number w = (.ok (), w') := by
  rw [dropScratch_eq]
  split_ifs <;> exact ⟨_, rfl⟩

/-- A generation with what it needs to return. -/
structure Site.Ready (s : Site) (g : Generation) (resources : List Api.Resource) : Prop where
  output : g.output = s.output
  version : g.versionFile = s.version
  layout : s.Layout
  batches : ∀ batch ∈ batches g resources, Batch.Ready g.output s.paths batch
  null : g.output.hasNull = false
  shared : ∃ content, g.renderer.shared = .ok content
  interface : (g.output.join (.ofString sharedName)).resolved s.top s.here ∈ s.paths
  count : isLongInteger resources.length = false

/-- **A generation returns** if its document is loaded and it has what it needs, and then there is
    room for the files once more. -/
theorem generate_returns (hload : load g.source g.timeout (begun w) = (.ok loaded, v))
    (hextract : Api.extract g.config loaded.document = .ok resources)
    (hready : s.Ready g resources) (h : s.Unrecorded w) :
    ∃ outcome w', generate g w = (.ok outcome, w') ∧ s.Roomy w' := by
  have h₀ := h.still (still_loaded hload)
  obtain ⟨v₁, hclear⟩ : ∃ v₁, clearNode g.output v = (.ok (), v₁) := by
    refine clearNode_returns h₀.sound (fun root hroot => ?_) fun l hl hsome => ?_
    · have husable := (h₀.room _ (s.mem_all hready.interface)).usable
      refine husable.inside root ?_
      unfold Path.resolved
      rw [Path.join_of_current (by decide +kernel), hroot]
    · rw [h₀.current, hready.output] at hl ⊢
      exact h₀.clear l hl hsome
  -- then each stage returns, and leaves room for the next one
  obtain ⟨content, hcontent⟩ := hready.shared
  have hshared : s.Succeeds (settleShared g) := by
    unfold settleShared
    split
    · exact succeeds_ensureShared hready.layout hready.null hcontent hready.interface
    · exact succeeds_pure none
  have h₁ := h₀.clears (clears_clearNode _ _ _ _ hclear)
  obtain ⟨found, v₂, hfound, h₂⟩ := succeeds_extractResources hextract v₁ h₁
  obtain rfl : found = resources := by
    have hsame := extractResources_returned hfound
    rw [hextract] at hsame
    exact (Except.ok.inj hsame).symm
  have h₃ := h₂.still (still_noting v₂ .info .generation
    ("Found " ++ toString found.length ++ " resources to generate"))
  obtain ⟨written, v₄, hwritten, h₄⟩ := succeeds_writeBatches hready.layout hready.batches _ h₃
  obtain ⟨shared, v₅, hsettled, h₅⟩ := hshared v₄ h₄
  obtain ⟨entries, v₆, hrecorded, h₆⟩ := recordComponent_returns hready.layout h₅
    (writable_generationMetadata g.config hready.count) g.component ⟨loaded.source, loaded.version⟩
  rw [← hready.version] at hrecorded
  -- the stages together
  have hprepare : prepare g loaded v = (.ok (found, written), v₄) :=
    bind_eq_ok_iff.mpr ⟨_, v₁, hclear, bind_eq_ok_iff.mpr ⟨_, v₂, hfound,
      bind_eq_ok_iff.mpr ⟨_, _, inform_eq _ _, bind_eq_ok_iff.mpr ⟨_, v₄, hwritten, rfl⟩⟩⟩⟩
  have hconclude : conclude g loaded found written v₄ =
      (.ok (outcomeOf g loaded found (written ++ shared.toList)),
        v₆.noting .info .generation "Code generation completed successfully!") :=
    bind_eq_ok_iff.mpr ⟨_, v₅, hsettled, bind_eq_ok_iff.mpr ⟨_, v₆, hrecorded,
      bind_eq_ok_iff.mpr ⟨_, _, inform_eq _ _, rfl⟩⟩⟩
  have hfrom : generateFrom g loaded v =
      (.ok (outcomeOf g loaded found (written ++ shared.toList)),
        v₆.noting .info .generation "Code generation completed successfully!") := by
    rw [generateFrom_eq]
    exact bind_eq_ok_iff.mpr ⟨_, v₄, hprepare, hconclude⟩
  -- the copy of a document that was fetched is dropped at the end
  obtain ⟨w', hdrop⟩ := dropScratch_returns loaded.scratch
    (v₆.noting .info .generation "Code generation completed successfully!")
  refine ⟨outcomeOf g loaded found (written ++ shared.toList), w', ?_,
    (h₆.still (still_noting _ _ _ _)).still (still_dropScratch _ _ _ _ hdrop)⟩
  show (load g.source g.timeout >>= fun loaded =>
    ensuring (generateFrom g loaded) (dropScratch loaded.scratch)) (begun w) = _
  rw [bind_of_ok hload, ensuring, hfrom]
  simp only [hdrop]

/-! ### Plain documents -/

/-- The paths of the files of a node, by the file names of its resources. -/
def nodePaths (output : Path) (top : String) (here : Location) (names : List String) : List Path :=
  (names.flatMap fun name => [place output ("resources/handlers/" ++ name ++ handlerEnding),
    place output ("properties/" ++ name ++ propertiesEnding)]) ++
  registryNames.map (place output) ++ [(output.join (.ofString sharedName)).resolved top here]

/-- The files of a plain resource can be written if there is room for them. -/
theorem ready_resourceFiles {r : Api.Resource} {paths : List Path} (hg : g.renderer = .standard)
    (hr : PlainResource r) (hhandler : place g.output (handlerPath r) ∈ paths)
    (hproperties : place g.output (propertiesPath r) ∈ paths) :
    Batch.Ready g.output paths (resourceFiles g r) := by
  obtain ⟨handler, hh, -⟩ := handlerText_sound hr
  obtain ⟨properties, hp, -⟩ := propertiesText_sound hr
  have hrender : g.renderer.handler r = .ok handler ∧ g.renderer.properties r = .ok properties := by
    rw [hg]
    exact ⟨hh, hp⟩
  obtain ⟨files, hfiles⟩ : ∃ files, resourceFiles g r = .ok files := by
    unfold resourceFiles
    rw [hrender.1, hrender.2]
    cases g.config.generateHandlers <;> cases g.config.generateProperties <;> exact ⟨_, rfl⟩
  refine ⟨files, hfiles, review_eq_nil (resourceFiles_sound hg hr hfiles), fun file hfile => ?_⟩
  rcases List.mem_pair.mp (fst_of_mem_resourceFiles hfiles hfile) with heq | heq <;> rw [heq] <;>
    assumption

/-- **A generation from a plain document has what it needs** if there is room for its files. -/
theorem ready_of_plain {document : Value} (hg : g.renderer = .standard)
    (hdocument : PlainDocument document) (hlabel : Remark g.nodeLabel.toList)
    (hextract : Api.extract g.config document = .ok resources) (hs : s.Layout)
    (houtput : g.output = s.output) (hversion : g.versionFile = s.version)
    (hnull : s.output.hasNull = false) (hcount : isLongInteger resources.length = false)
    (hpaths : nodePaths s.output s.top s.here (resources.map (·.fileName)) ⊆ s.paths) :
    s.Ready g resources := by
  have hplain {r : Api.Resource} (hr : r ∈ resources) : PlainResource r :=
    plainResource_of_mem hdocument hextract hr
  unfold nodePaths at hpaths
  rw [List.append_subset, List.append_subset] at hpaths
  obtain ⟨⟨hresources, hregistry⟩, hinterface⟩ := hpaths
  refine ⟨houtput, hversion, hs, fun batch hbatch => ?_, houtput ▸ hnull, ?_, ?_, hcount⟩
  · rcases List.mem_append.mp hbatch with hbatch | hbatch
    · -- the files of a resource
      obtain ⟨r, hr, rfl⟩ := List.mem_map.mp hbatch
      have hplaced {name : String} (hname : name ∈ [handlerPath r, propertiesPath r]) :
          place g.output name ∈ s.paths := by
        rw [houtput]
        refine hresources (List.mem_flatMap.mpr ⟨r.fileName, List.mem_map_of_mem hr, ?_⟩)
        exact List.mem_map_of_mem (f := place s.output) hname
      exact ready_resourceFiles hg (hplain hr) (hplaced (by simp)) (hplaced (by simp))
    · split_ifs at hbatch
      · -- the registry
        obtain ⟨files, hfiles, hpass⟩ := registryFiles_sound (fun _ => hplain) hlabel
        rw [List.mem_singleton.mp hbatch, hg]
        refine ⟨files, hfiles, review_eq_nil hpass, fun file hfile => ?_⟩
        rw [houtput]
        refine hregistry (List.mem_map_of_mem ?_)
        rw [← map_fst_registryFiles hfiles]
        exact List.mem_map_of_mem hfile
      · cases hbatch
  · obtain ⟨content, hcontent, -⟩ := sharedHandlerText_sound
    exact ⟨content, hg ▸ hcontent⟩
  · rw [houtput]
    exact hinterface (List.mem_singleton.mpr rfl)

/-- There is room for files at usable paths where nothing stands at them and no file on the way. -/
theorem unrecorded_of_free (hs : s.Layout) (hw : w.tree.Sound) (hhere : s.here = [])
    (hcurrent : w.current = []) (htop : w.top = s.top) (hdenied : w.denied.write = [])
    (hpaths : ∀ p ∈ s.all, p.hasNull = false ∧ p.Usable w.tree.whole ∧
      (∃ name ∈ p.names.getLast?, name ≠ "..") ∧ (w.tree.at? (p.location [])).isNone ∧
      ∀ k ∈ p.parent.names.inits, (w.files (Files.plainLocation (p.origin []) k)).isNone)
    (hclear : ∀ entry ∈ w.tree.entries,
      IsResourceFile (s.output.location []) entry.1 → Removable s.output [] entry.1) :
    s.Unrecorded w := by
  refine ⟨⟨⟨hw, by rw [hcurrent]; rfl⟩, hdenied, htop, hcurrent.trans hhere.symm, fun p hp => ?_,
    fun l hl hsome => ?_⟩, ?_⟩
  · -- there is room for a file at each path
    obtain ⟨hnull, husable, ⟨name, hname, hlast⟩, hnone, hway⟩ := hpaths p hp
    rw [Option.isNone_iff_eq_none] at hnone
    refine ⟨hnull, husable, ⟨name, hname, hlast⟩, fun k hk => ?_, ?_, ?_⟩
    · rw [hcurrent]
      exact Option.isNone_iff_eq_none.mp (hway k ((List.mem_inits _ _).mpr hk))
    · rw [hcurrent, hnone]
      simp
    · rw [hcurrent, ← hhere]
      exact hs.apart p hp p hp
  · -- what stands in the place of a resource file is an entry of the tree
    rw [hhere] at hl ⊢
    have hne : l ≠ [] := by
      rintro rfl
      rcases hl with ⟨name, h, -⟩ | ⟨name, h, -⟩ <;> simp at h
    obtain ⟨entry, hentry, rfl⟩ := Tree.exists_entry hne hsome
    exact hclear entry hentry hl
  · -- nothing stands at the version document
    obtain ⟨-, -, -, hnone, -⟩ := hpaths _ List.mem_cons_self
    rw [hhere, World.files, Tree.file?, Option.isNone_iff_eq_none.mp hnone]

/-- The site of a node, by the file names of its resources, with room for other files. -/
def nodeSite (g : Generation) (names : List String) (others : List Path) : Site where
  output := g.output
  top := ""
  here := []
  version := g.versionFile
  paths := nodePaths g.output "" [] names ++ others

/-- **A generation from a plain document returns** if there is room for its files. -/
theorem generate_plain_returns {document : Value} (g : Generation) (names : List String)
    (others : List Path) (hg : g.renderer = .standard) (hlabel : Remark g.nodeLabel.toList)
    (hdocument : PlainDocument document) (hloads : Loads g w document)
    (hextract : (Api.extract g.config document).toOption.map (·.map (·.fileName)) = some names)
    (hcount : isLongInteger names.length = false) (hnull : g.output.hasNull = false)
    (hs : (nodeSite g names others).Layout) (h : (nodeSite g names others).Unrecorded w) :
    ∃ outcome w', generate g w = (.ok outcome, w') ∧ (nodeSite g names others).Roomy w' := by
  obtain ⟨loaded, v, hload, rfl⟩ := hloads
  cases hresources : Api.extract g.config loaded.document with
  | error e => simp [hresources, Except.toOption] at hextract
  | ok resources =>
    obtain rfl : resources.map (·.fileName) = names := by
      simpa [hresources, Except.toOption] using hextract
    rw [List.length_map] at hcount
    exact generate_returns hload hresources (ready_of_plain hg hdocument hlabel hresources hs rfl
      rfl hnull hcount (List.subset_append_left _ _)) h

theorem remark_defaultLabel : Remark "Nalpeiron".toList :=
  ⟨by decide +kernel, by decide +kernel, by decide +kernel⟩

theorem sound_hostileWorld : hostileWorld.Sound :=
  ⟨Tree.sound_of_entries fun _ h => absurd h List.not_mem_nil, rfl⟩

/-- So does one from the document that tries to leave its texts. -/
theorem generate_hostileWorld :
    ∃ outcome w', generate { output := .ofString "node" } hostileWorld = (.ok outcome, w') := by
  have hs : (nodeSite { output := .ofString "node" } ["u"] []).Layout := by decide +kernel
  obtain ⟨outcome, w', hrun, -⟩ := generate_plain_returns { output := .ofString "node" } ["u"] []
    rfl remark_defaultLabel plainDocument_hostileDocument ((loads_hostileWorld_iff rfl rfl).mpr rfl)
    (by decide +kernel) (by decide +kernel) (by decide +kernel) hs
    (unrecorded_of_free hs sound_hostileWorld.tree rfl rfl rfl rfl (by decide +kernel)
      (by decide +kernel))
  exact ⟨outcome, w', hrun⟩

end ApiNodes.Run
