import ApiNodes.Proofs.Run.Returns

namespace ApiNodes.Run

open Files (Location)
open Typescript (review)

/-!
# Validation of what is written

Whatever is rendered, a generation writes a batch only after its review.  A batch at fault ends
the run before any of its files, any later batch, the shared interface and the version document.

* `generate_reviewed` — the review of what a generation writes.
-/

variable {g : Generation} {w w' : World} {result : Except RunError Outcome}

/-- The review of what a generation writes.  `written` are the files of its batches that it wrote,
    in their order, over those that it kept when it cleared the old ones away. -/
structure Reviewed (g : Generation) (w w' : World) (result : Except RunError Outcome)
    (kept : Location → Option ByteArray) (written : List (String × String)) : Prop where
  /-- Only resource files are cleared away. -/
  cleared : ∀ l, kept l = w.files l ∨
    kept l = none ∧ IsResourceFile (g.output.location w.current) l
  /-- All other files, but the shared interface and the version document, are those written. -/
  files : ∀ l, l ≠ sharedLocation (g.output.location w.current) →
    l ≠ g.versionFile.location w.current →
    w'.files l = overlay w.current g.output written kept l
  /-- A file that was written passes its review under its path. -/
  sound : ∀ file ∈ written, review [file] = []
  /-- A new content of a file is one of them. -/
  changed : ∀ l data, l ≠ sharedLocation (g.output.location w.current) →
    l ≠ g.versionFile.location w.current → w'.files l = some data → w.files l ≠ some data →
    ∃ name content, l = (place g.output name).location w.current ∧ data = content.toUTF8 ∧
      review [(name, content)] = []
  /-- A batch at fault is not written, nor is any later one, nor the shared interface or the
      version document.  It is why the run fails, unless an earlier step failed. -/
  faulty : ∀ loaded v resources before files after,
    load g.source g.timeout (begun w) = (.ok loaded, v) →
    Api.extract g.config loaded.document = .ok resources →
    batches g resources = before ++ .ok files :: after → review files ≠ [] →
    w'.files = overlay w.current g.output written kept ∧
      (BatchRun before written none ∧ result = .error (.rejected (review files)) ∨
        ∃ e, result = .error e ∧
          (written = [] ∧ IsRefusal e ∨ BatchRun before written (some e)))

/-- A generation writes sound files only. -/
theorem Course.review_singleton {loaded : Loaded} {written : List (String × String)}
    {shared versions : Option String} (h : Course g loaded w written shared versions result)
    {file : String × String} (hfile : file ∈ written) : review [file] = [] := by
  obtain ⟨resources, files, -, -, hsound, hmem⟩ := h.exists_batch hfile
  exact Typescript.review_eq_nil_iff.mp hsound file hmem

/-- A batch at fault ends the course of a generation, unless an earlier step did. -/
theorem Course.of_faulty {loaded : Loaded} {written : List (String × String)}
    {shared versions : Option String} (h : Course g loaded w written shared versions result)
    {resources : List Api.Resource} {before after : List Batch} {files : List (String × String)}
    (hextract : Api.extract g.config loaded.document = .ok resources)
    (hbatches : batches g resources = before ++ .ok files :: after) (hfaults : review files ≠ []) :
    shared = none ∧ versions = none ∧
      (BatchRun before written none ∧ result = .error (.rejected (review files)) ∨
        ∃ e, result = .error e ∧
          (written = [] ∧ IsRefusal e ∨ BatchRun before written (some e))) := by
  have key {others : List Api.Resource} {failure : Option RunError}
      (hothers : Api.extract g.config loaded.document = .ok others)
      (hrun : BatchRun (batches g others) written failure) :
      (BatchRun before written none ∧ failure = some (.rejected (review files))) ∨
        ∃ e, failure = some e ∧ BatchRun before written (some e) := by
    rw [hextract] at hothers
    cases hothers
    rw [hbatches] at hrun
    exact hrun.of_faulty hfaults
  cases h with
  | uncleared hrefusal => exact ⟨rfl, rfl, .inr ⟨_, rfl, .inl ⟨rfl, hrefusal⟩⟩⟩
  | unextracted hfails =>
    rw [hextract] at hfails
    cases hfails
  | unwritten hothers hrun =>
    refine ⟨rfl, rfl, ?_⟩
    rcases key hothers hrun with ⟨hbefore, heq⟩ | ⟨e, heq, hbefore⟩
    · exact .inl ⟨hbefore, congrArg _ (Option.some.inj heq)⟩
    · exact .inr ⟨e, congrArg _ (Option.some.inj heq), .inr hbefore⟩
  | unrecorded hothers hrun =>
    rcases key hothers hrun with ⟨-, heq⟩ | ⟨e, heq, -⟩ <;> cases heq
  | returned hothers hrun =>
    rcases key hothers hrun with ⟨-, heq⟩ | ⟨e, heq, -⟩ <;> cases heq

/-- **Nothing is written that was not reviewed,** and the files of a batch are written only if all
    of them are sound. -/
theorem generate_reviewed (hw : w.Sound) (h : generate g w = (result, w')) :
    ∃ kept written, Reviewed g w w' result kept written := by
  rcases generate_cases hw h with
    ⟨e, v, hload, -, hstill⟩ | ⟨loaded, v, written, shared, versions, hload, hcourse, hleaves⟩
  · have hfiles := hstill.paves.files
    refine ⟨w.files, [], fun l => .inl rfl, fun l _ _ => congrFun hfiles l, ?_, ?_, ?_⟩
    · simp
    · intro l data _ _ hnew hold
      rw [hfiles] at hnew
      exact absurd hnew hold
    · intro loaded v' resources before files after hload'
      rw [hload] at hload'
      cases hload'
  · obtain ⟨cleared, hcleared, hfiles⟩ := hleaves.files
    have hbelow (l : Location) (hl : l ≠ sharedLocation (g.output.location w.current))
        (hl' : l ≠ g.versionFile.location w.current) :
        w'.files l = overlay w.current g.output written cleared l := by
      rw [hfiles, withText_of_ne fun _ => hl', withText_of_ne fun _ => hl]
    refine ⟨cleared, written,
      fun l => (hcleared l).imp_right fun hgone => ⟨hgone.1, hgone.2.isResourceFile⟩, hbelow,
      fun file => hcourse.review_singleton, ?_, ?_⟩
    · intro l data hl hl' hnew hold
      rw [hbelow l hl hl'] at hnew
      rcases overlay_cases w.current g.output written cleared l with
        heq | ⟨file, hfile, hplace, heq⟩
      · -- what is not written anew is as before, or gone
        rw [heq] at hnew
        rcases hcleared l with hkept | ⟨hgone, -⟩
        · rw [hkept] at hnew
          exact absurd hnew hold
        · rw [hgone] at hnew
          cases hnew
      · rw [heq] at hnew
        exact ⟨file.1, file.2, hplace, (Option.some.inj hnew).symm,
          hcourse.review_singleton hfile⟩
    · intro loaded' v' resources before files after hload' hextract hbatches hfaults
      rw [hload] at hload'
      cases hload'
      obtain ⟨rfl, rfl, hend⟩ := hcourse.of_faulty hextract hbatches hfaults
      exact ⟨hfiles, hend⟩

/-- A generation of handler files that hold a bracket which is not closed. -/
def unclosedGeneration : Generation where
  output := .ofString "node"
  config := { generateProperties := false }
  renderer := { Renderer.standard with handler := fun _ => .ok "\x7b" }

theorem generate_reviewed_hostileWorld :
    ∃ e, (generate unclosedGeneration hostileWorld).1 = .error e ∧
      (generate unclosedGeneration hostileWorld).2.files = hostileWorld.files := by
  obtain ⟨kept, written, hreviewed⟩ :=
    generate_reviewed (g := unclosedGeneration) sound_hostileWorld rfl
  obtain ⟨loaded, v, hload, hdocument⟩ : Loads unclosedGeneration hostileWorld hostileDocument :=
    (loads_hostileWorld_iff rfl rfl).mpr rfl
  have hnames : (Api.extract unclosedGeneration.config hostileDocument).toOption.map
      (·.map (·.fileName)) = some ["u"] := by decide +kernel
  cases hextract : Api.extract unclosedGeneration.config hostileDocument with
  | error e =>
    rw [hextract] at hnames
    cases hnames
  | ok resources =>
    rw [hextract] at hnames
    obtain ⟨r, rfl, hname⟩ := List.map_eq_singleton_iff.mp (Option.some.inj hnames)
    have hfaults : review [(handlerPath r, "\x7b")] ≠ [] := by
      unfold handlerPath
      rw [hname]
      decide +kernel
    obtain ⟨hfiles, hend⟩ := hreviewed.faulty loaded v [r] [] [(handlerPath r, "\x7b")] _ hload
      (hdocument ▸ hextract) rfl hfaults
    obtain ⟨rfl, e, hresult⟩ :
        written = [] ∧ ∃ e, (generate unclosedGeneration hostileWorld).1 = .error e := by
      rcases hend with ⟨hrun, hresult⟩ | ⟨e, hresult, ⟨rfl, -⟩ | hrun⟩
      · cases hrun
        exact ⟨rfl, _, hresult⟩
      · exact ⟨rfl, e, hresult⟩
      · cases hrun
    refine ⟨e, hresult, hfiles.trans (funext fun l => ?_)⟩
    rcases hreviewed.cleared l with heq | ⟨hgone, -⟩
    · exact heq
    · have hnone : hostileWorld.files l = none := by cases l <;> rfl
      exact hgone.trans hnone.symm

end ApiNodes.Run
