import ApiNodes.Proofs.Run.Changes
import ApiNodes.Proofs.Run.Failures
import ApiNodes.Proofs.Run.Places

namespace ApiNodes.Run

open Api (Resource)
open Files (Location Path)
open Typescript (review)

/-!
# Batches of files

A run writes its files in batches, each after its review.  `BatchRun` tells how far it gets, and
`Overlays` what it leaves: the files that it wrote, in the order in which it wrote them, over what
was there.

* `writesBelow_writeArtifacts` — the files of one batch;
* `RunsBatches.append` — batches, and then others;
* `runsBatches_generateResources` — the batches of resources;
* `BatchRun.of_faulty` — what is not written when a batch is at fault.
-/

variable {α β : Type} {w v w' : World} {p folder : Path} {here l : Location} {content : String}
  {files written others : List (String × String)} {view : Location → Option ByteArray}
  {g : Generation} {resources : List Resource}

/-! ### Files over others -/

/-- Files that are written below a folder one after the other, over what was there. -/
def overlay (here : Location) (folder : Path) (files : List (String × String))
    (view : Location → Option ByteArray) : Location → Option ByteArray :=
  files.foldl (fun view file =>
    Function.update view ((place folder file.1).location here) (some file.2.toUTF8)) view

/-- Files are written, and then others. -/
theorem overlay_append (here : Location) (folder : Path) (files others : List (String × String))
    (view : Location → Option ByteArray) :
    overlay here folder (files ++ others) view =
      overlay here folder others (overlay here folder files view) :=
  List.foldl_append

/-- Where no file is written everything is as before. -/
theorem overlay_of_forall_ne (h : ∀ file ∈ files, l ≠ (place folder file.1).location here) :
    overlay here folder files view l = view l := by
  induction files generalizing view with
  | nil => rfl
  | cons file files ih =>
    rw [List.forall_mem_cons] at h
    show overlay here folder files (Function.update view _ _) l = _
    rw [ih h.2, Function.update_of_ne h.1]

/-- Where a file is written it does not matter what was there. -/
theorem overlay_congr_of_mem (view view' : Location → Option ByteArray)
    (h : ∃ file ∈ files, l = (place folder file.1).location here) :
    overlay here folder files view l = overlay here folder files view' l := by
  induction files generalizing view view' with
  | nil =>
    obtain ⟨file, hfile, -⟩ := h
    cases hfile
  | cons file files ih =>
    show overlay here folder files (Function.update view _ _) l =
      overlay here folder files (Function.update view' _ _) l
    by_cases hlater : ∃ file ∈ files, l = (place folder file.1).location here
    · exact ih _ _ hlater
    · -- then it was the first file, and no other one came over it
      push Not at hlater
      obtain ⟨first, hfirst, hl⟩ := h
      rcases List.mem_cons.mp hfirst with rfl | hmem
      · rw [overlay_of_forall_ne hlater, overlay_of_forall_ne hlater, hl, Function.update_self,
          Function.update_self]
      · exact absurd hl (hlater first hmem)

/-- It matters nowhere but there. -/
theorem overlay_congr {view' : Location → Option ByteArray} (h : view l = view' l) :
    overlay here folder files view l = overlay here folder files view' l := by
  by_cases hwritten : ∃ file ∈ files, l = (place folder file.1).location here
  · exact overlay_congr_of_mem view view' hwritten
  · push Not at hwritten
    rw [overlay_of_forall_ne hwritten, overlay_of_forall_ne hwritten, h]

/-- Where everything is as before, or the last file that was written. -/
theorem overlay_cases (here : Location) (folder : Path) (files : List (String × String))
    (view : Location → Option ByteArray) (l : Location) :
    overlay here folder files view l = view l ∨
      ∃ file ∈ files, l = (place folder file.1).location here ∧
        overlay here folder files view l = some file.2.toUTF8 := by
  induction files generalizing view with
  | nil => exact .inl rfl
  | cons file files ih =>
    rcases ih (Function.update view ((place folder file.1).location here) (some file.2.toUTF8)) with
      heq | ⟨later, hlater, hl, heq⟩
    · by_cases hl : l = (place folder file.1).location here
      · refine .inr ⟨file, List.mem_cons_self, hl, ?_⟩
        exact heq.trans (by rw [hl, Function.update_self])
      · exact .inl (heq.trans (Function.update_of_ne hl _ _))
    · exact .inr ⟨later, List.mem_cons_of_mem _ hlater, hl, heq⟩

/-- A file that is written holds its text if no other is written at its location. -/
theorem overlay_of_nodup (h : (files.map fun file => (place folder file.1).location here).Nodup)
    {file : String × String} (hfile : file ∈ files) :
    overlay here folder files view ((place folder file.1).location here) = some file.2.toUTF8 := by
  induction files generalizing view with
  | nil => cases hfile
  | cons first rest ih =>
    rw [List.map_cons, List.nodup_cons] at h
    show overlay here folder rest (Function.update view _ _) _ = _
    rcases List.mem_cons.mp hfile with rfl | hfile
    · rw [overlay_of_forall_ne fun later hlater heq => h.1 ?_, Function.update_self]
      exact List.mem_map.mpr ⟨later, hlater, heq.symm⟩
    · exact ih h.2 hfile

/-- Where a file was there is one. -/
theorem isSome_overlay (h : (view l).isSome) : (overlay here folder files view l).isSome := by
  induction files generalizing view with
  | nil => exact h
  | cons file files ih =>
    refine ih ?_
    show (Function.update view _ _ l).isSome
    rw [Function.update_apply]
    split_ifs
    · rfl
    · exact h

/-- Where a file is written there is one. -/
theorem isSome_overlay_of_mem {file : String × String} (hfile : file ∈ files) :
    (overlay here folder files view ((place folder file.1).location here)).isSome := by
  rw [overlay_congr_of_mem view (fun _ => some file.2.toUTF8) ⟨file, hfile, rfl⟩]
  exact isSome_overlay rfl

/-- A world in which files were written below a folder, under paths that lead to them. -/
structure Overlays (folder : Path) (written : List (String × String)) (w w' : World) : Prop
    extends Continues w w' where
  files : w'.files = overlay w.current folder written w.files
  reaches : ∀ file ∈ written, Reaches (place folder file.1) w'

/-- Nothing is written where folders are made. -/
theorem Paves.overlays (h : Paves w w') (folder : Path) : Overlays folder [] w w' :=
  ⟨h.toContinues, h.files, by simp⟩

/-- Files are written, and then others. -/
theorem Overlays.trans (h : Overlays folder written w v) (h' : Overlays folder others v w') :
    Overlays folder (written ++ others) w w' where
  toContinues := h.toContinues.trans h'.toContinues
  files := by rw [h'.files, h.files, h.current, overlay_append]
  reaches := by
    rw [List.forall_mem_append]
    exact ⟨fun file hfile => (h.reaches file hfile).continues h'.toContinues, h'.reaches⟩

/-! ### One batch -/

/-- A generated file is written, or nothing but folders. -/
theorem writeArtifact_cases {r : Except RunError Path} (h : writeArtifact p content w = (r, w')) :
    (∃ e, r = .error e ∧ IsWriteFailure e ∧ Paves w w') ∨
      r = .ok p ∧ Reaches p w' ∧ Continues w w' ∧
        w'.files = Function.update w.files (p.location w.current) (some content.toUTF8) := by
  cases r with
  | ok q =>
    obtain ⟨rfl, v, hmade, hwrite⟩ := writeArtifact_eq_ok_iff.mp h
    have hpaves := paves_makeFolders _ _ _ _ hmade
    rcases writeText_cases hwrite with ⟨e, he, -⟩ | ⟨-, hreaches, hcontinues, hfiles⟩
    · cases he
    · refine .inr ⟨rfl, hreaches, hpaves.toContinues.trans hcontinues, ?_⟩
      rw [hfiles, hpaves.files, hpaves.current]
  | error e =>
    have key (e' : RunError) (v : World)
        (hbody : (do makeFolders p.parent; writeText p content : Run Unit) w = (.error e', v)) :
        Paves w v := by
      rcases bind_eq_error_iff.mp hbody with hmade | ⟨_, u, hmade, hwrite⟩
      · exact paves_makeFolders _ _ _ _ hmade
      · rcases writeText_cases hwrite with ⟨_, -, rfl⟩ | ⟨hok, -⟩
        · exact paves_makeFolders _ _ _ _ hmade
        · cases hok
    refine .inl ⟨e, rfl, failsOnly_writeArtifact p content _ _ _ h, ?_⟩
    rcases bind_eq_error_iff.mp h with hattempt | ⟨result, v, hattempt, hend⟩
    · exact key _ _ (attempt_eq_error_imp hattempt).1
    · rcases attempt_eq_ok_imp hattempt with ⟨_, rfl, -⟩ | ⟨refusal, rfl, hbody⟩
      · cases hend
      · cases hend
        exact key _ _ hbody

/-- A computation that writes the files of a batch one after the other, up to one that cannot be
    written. -/
def WritesBelow (folder : Path) (m : List (String × String) → Run (List Path)) : Prop :=
  ∀ files w r w', m files w = (r, w') → ∃ written, Overlays folder written w w' ∧
    (r = .ok (files.map (place folder ·.1)) ∧ written = files ∨
      ∃ e, r = .error e ∧ IsWriteFailure e ∧ written <+: files ∧ written ≠ files)

/-- The files of a batch are written. -/
theorem writesBelow_writeArtifacts (folder : Path) (origin : Origin) (announce : String) :
    WritesBelow folder (writeArtifacts folder origin announce) := by
  intro files
  induction files with
  | nil =>
    intro w r w' h
    cases h
    exact ⟨[], (Still.refl _).paves.overlays _, .inl ⟨rfl, rfl⟩⟩
  | cons file files ih =>
    intro w r w' h
    unfold writeArtifacts at h
    cases hfile : writeArtifact (folder.join (.ofString file.1)) file.2 w with
    | mk first v =>
      rcases writeArtifact_cases hfile with
        ⟨e, rfl, he, hw⟩ | ⟨rfl, hreaches, hcontinues, hfiles⟩
      · -- the first file is not written, and none of the others
        rw [bind_of_error hfile] at h
        cases h
        exact ⟨[], hw.overlays _, .inr ⟨e, rfl, he, List.nil_prefix, by simp⟩⟩
      · -- it is written and noted, and the others follow
        rw [bind_of_ok hfile, bind_of_ok (inform_eq _ _)] at h
        have hlog := (still_noting v .info origin (announce ++ file.1)).paves.toContinues
        have hone : Overlays folder [file] w (v.noting .info origin (announce ++ file.1)) :=
          ⟨hcontinues.trans hlog, hfiles, List.forall_mem_singleton.mpr (hreaches.continues hlog)⟩
        cases hrest : writeArtifacts folder origin announce files
            (v.noting .info origin (announce ++ file.1)) with
        | mk rest u =>
          obtain ⟨written, hoverlays, hend⟩ := ih _ _ _ hrest
          rcases hend with ⟨rfl, rfl⟩ | ⟨e, rfl, he, hpart, hne⟩
          · rw [bind_of_ok hrest] at h
            cases h
            exact ⟨file :: written, hone.trans hoverlays, .inl ⟨rfl, rfl⟩⟩
          · rw [bind_of_error hrest] at h
            cases h
            refine ⟨file :: written, hone.trans hoverlays, .inr ⟨e, rfl, he, ?_, ?_⟩⟩
            · exact List.cons_prefix_cons.mpr ⟨rfl, hpart⟩
            · exact fun heq => hne (List.cons.inj heq).2

/-- Nothing is done with files that are not rendered, or at fault. -/
theorem reviewed_cases {batch : Except Template.RenderError (List (String × String))}
    {m : List (String × String) → Run β} {r : Except RunError β}
    (h : (do let files ← rendered batch; requireSound files; m files) w = (r, w')) :
    (∃ e, batch = .error e ∧ r = .error (.render e) ∧ w' = w) ∨
      (∃ files, batch = .ok files ∧ review files ≠ [] ∧ r = .error (.rejected (review files)) ∧
        w' = w) ∨
      ∃ files, batch = .ok files ∧ review files = [] ∧ m files w = (r, w') := by
  cases batch with
  | error e =>
    cases h
    exact .inl ⟨e, rfl, rfl, rfl⟩
  | ok files =>
    refine .inr ?_
    replace h : (requireSound files >>= fun _ => m files) w = (r, w') := h
    by_cases hsound : review files = []
    · refine .inr ⟨files, rfl, hsound, ?_⟩
      rw [requireSound, hsound] at h
      exact h
    · refine .inl ⟨files, rfl, hsound, ?_⟩
      have hreject : requireSound files w = (.error (.rejected (review files)), w) := by
        unfold requireSound
        cases hfaults : review files with
        | nil => exact absurd hfaults hsound
        | cons fault faults => rfl
      rw [bind_of_error hreject] at h
      cases h
      exact ⟨rfl, rfl⟩

/-! ### Batches -/

/-- The files of a batch, if they can be rendered. -/
abbrev Batch := Except Template.RenderError (List (String × String))

/-- How a run writes batches: the files that it writes, and why it ends before the last batch. -/
inductive BatchRun : List Batch → List (String × String) → Option RunError → Prop
  /-- There are no more batches. -/
  | done : BatchRun [] [] none
  /-- A batch is not rendered. -/
  | unrendered {e rest} : BatchRun (.error e :: rest) [] (some (.render e))
  /-- A batch is at fault. -/
  | rejected {files rest} (hfaults : review files ≠ []) :
    BatchRun (.ok files :: rest) [] (some (.rejected (review files)))
  /-- A file of a sound batch cannot be written. -/
  | stopped {files written rest e} (hsound : review files = []) (hpart : written <+: files)
    (hfailure : IsWriteFailure e) : BatchRun (.ok files :: rest) written (some e)
  /-- A sound batch is written, and the run goes on. -/
  | written {files rest others failure} (hsound : review files = [])
    (hrest : BatchRun rest others failure) : BatchRun (.ok files :: rest) (files ++ others) failure

variable {batches more : List Batch} {failure : Option RunError}

/-- A run goes on with more batches. -/
theorem BatchRun.append (h : BatchRun batches written none) (h' : BatchRun more others failure) :
    BatchRun (batches ++ more) (written ++ others) failure := by
  generalize hnone : (none : Option RunError) = ended at h
  induction h with
  | done => exact h'
  | unrendered => cases hnone
  | rejected => cases hnone
  | stopped => cases hnone
  | written hsound hrest ih =>
    rw [List.cons_append, List.append_assoc]
    exact .written hsound (ih hnone)

/-- A run that ended writes no more batches. -/
theorem BatchRun.append_failed {e : RunError} (h : BatchRun batches written (some e))
    (more : List Batch) : BatchRun (batches ++ more) written (some e) := by
  generalize hsome : some e = ended at h
  induction h with
  | done => cases hsome
  | unrendered => exact .unrendered
  | rejected hfaults => exact .rejected hfaults
  | stopped hsound hpart hfailure => exact .stopped hsound hpart hfailure
  | written hsound hrest ih => exact .written hsound (ih hsome)

/-- A run over more batches ends within the first of them, or goes on to the others. -/
theorem BatchRun.of_append (h : BatchRun (batches ++ more) written failure) :
    (∃ e, failure = some e ∧ BatchRun batches written (some e)) ∨
      ∃ first others, written = first ++ others ∧ BatchRun batches first none ∧
        BatchRun more others failure := by
  induction batches generalizing written with
  | nil => exact .inr ⟨[], written, rfl, .done, h⟩
  | cons batch batches ih =>
    rw [List.cons_append] at h
    cases h with
    | unrendered => exact .inl ⟨_, rfl, .unrendered⟩
    | rejected hfaults => exact .inl ⟨_, rfl, .rejected hfaults⟩
    | stopped hsound hpart hfailure => exact .inl ⟨_, rfl, .stopped hsound hpart hfailure⟩
    | written hsound hrest =>
      rcases ih hrest with ⟨e, rfl, h⟩ | ⟨first, others, rfl, hfirst, hothers⟩
      · exact .inl ⟨e, rfl, .written hsound h⟩
      · exact .inr ⟨_, others, (List.append_assoc _ _ _).symm, .written hsound hfirst, hothers⟩

/-- A run that goes through its batches writes all of them, one after the other. -/
theorem BatchRun.flatten (h : BatchRun batches written none) :
    ∃ all : List (List (String × String)), batches = all.map .ok ∧ written = all.flatten := by
  generalize hnone : (none : Option RunError) = ended at h
  induction h with
  | done => exact ⟨[], rfl, rfl⟩
  | unrendered => cases hnone
  | rejected => cases hnone
  | stopped => cases hnone
  | written hsound hrest ih =>
    obtain ⟨all, rfl, rfl⟩ := ih hnone
    exact ⟨_ :: all, rfl, rfl⟩

/-- Each of its batches is rendered and written. -/
theorem BatchRun.rendered {batch : Batch} (h : BatchRun batches written none)
    (hbatch : batch ∈ batches) : ∃ files, batch = .ok files ∧ files ⊆ written := by
  obtain ⟨all, rfl, rfl⟩ := h.flatten
  obtain ⟨files, hfiles, rfl⟩ := List.mem_map.mp hbatch
  exact ⟨files, rfl, fun file hfile => List.mem_flatten_of_mem hfiles hfile⟩

/-- What it writes are its batches. -/
theorem BatchRun.unique (h : BatchRun batches written none) (h' : BatchRun batches others none) :
    written = others := by
  obtain ⟨all, hall, rfl⟩ := h.flatten
  obtain ⟨all', hall', rfl⟩ := h'.flatten
  have hsame := List.map_injective_iff.mpr (fun _ _ => Except.ok.inj) (hall.symm.trans hall')
  rw [hsame]

/-- The names of the files of a batch. -/
def Batch.names (batch : Batch) : List String := (batch.toOption.getD []).map (·.1)

/-- It writes under the names of its batches. -/
theorem BatchRun.map_fst (h : BatchRun batches written none) :
    written.map (·.1) = batches.flatMap Batch.names := by
  obtain ⟨all, rfl, rfl⟩ := h.flatten
  rw [List.flatMap_map, List.map_flatten]
  rfl

/-- **A batch at fault ends the run** before any of its files is written, unless the run ended
    earlier. -/
theorem BatchRun.of_faulty (hfaults : review files ≠ [])
    (h : BatchRun (batches ++ .ok files :: more) written failure) :
    (BatchRun batches written none ∧ failure = some (.rejected (review files))) ∨
      ∃ e, failure = some e ∧ BatchRun batches written (some e) := by
  rcases h.of_append with h | ⟨first, others, rfl, hfirst, hothers⟩
  · exact .inr h
  · left
    cases hothers with
    | rejected => rw [List.append_nil]; exact ⟨hfirst, rfl⟩
    | stopped hsound => exact absurd hsound hfaults
    | written hsound => exact absurd hsound hfaults

/-- What is written belongs to a sound batch. -/
theorem BatchRun.exists_batch {file : String × String} (h : BatchRun batches written failure)
    (hfile : file ∈ written) : ∃ files, .ok files ∈ batches ∧ review files = [] ∧ file ∈ files := by
  induction h with
  | done => cases hfile
  | unrendered => cases hfile
  | rejected => cases hfile
  | stopped hsound hpart => exact ⟨_, List.mem_cons_self, hsound, hpart.subset hfile⟩
  | written hsound hrest ih =>
    rcases List.mem_append.mp hfile with hfile | hfile
    · exact ⟨_, List.mem_cons_self, hsound, hfile⟩
    · obtain ⟨files, hmem, hfiles⟩ := ih hfile
      exact ⟨files, List.mem_cons_of_mem _ hmem, hfiles⟩

/-! ### Batches in a row -/

/-- The end of a computation, if it failed. -/
def failure? : Except RunError α → Option RunError
  | .ok _ => none
  | .error e => some e

/-- A computation that writes batches below a folder, and returns the paths of their files. -/
def RunsBatches (folder : Path) (batches : List Batch) (m : Run (List Path)) : Prop :=
  ∀ w r w', m w = (r, w') → ∃ written, Overlays folder written w w' ∧
    BatchRun batches written (failure? r) ∧
    ∀ paths, r = .ok paths → paths = written.map (place folder ·.1)

/-- No batches. -/
theorem runsBatches_nil (folder : Path) : RunsBatches folder [] (pure []) := by
  intro w r w' h
  cases h
  exact ⟨[], (Still.refl _).paves.overlays _, .done, fun _ h => (Except.ok.inj h).symm⟩

/-- One batch, whose files are written when they are rendered and sound. -/
theorem runsBatches_singleton {batch : Batch} {m : List (String × String) → Run (List Path)}
    (hm : WritesBelow folder m) :
    RunsBatches folder [batch] (do
      let files ← rendered batch
      requireSound files
      m files) := by
  intro w r w' h
  rcases reviewed_cases h with ⟨e, rfl, rfl, rfl⟩ | ⟨files, rfl, hfaults, rfl, rfl⟩ |
    ⟨files, rfl, hsound, h⟩
  · exact ⟨[], (Still.refl _).paves.overlays _, .unrendered, fun _ h => by cases h⟩
  · exact ⟨[], (Still.refl _).paves.overlays _, .rejected hfaults, fun _ h => by cases h⟩
  · obtain ⟨written, hoverlays, hend⟩ := hm _ _ _ _ h
    refine ⟨written, hoverlays, ?_⟩
    rcases hend with ⟨rfl, rfl⟩ | ⟨e, rfl, he, hpart, -⟩
    · have hone := BatchRun.written hsound .done
      rw [List.append_nil] at hone
      exact ⟨hone, fun paths h => (Except.ok.inj h).symm⟩
    · exact ⟨.stopped hsound hpart he, fun _ h => by cases h⟩

/-- Batches after a line in the log. -/
theorem RunsBatches.after_inform {m : Run (List Path)} (h : RunsBatches folder batches m)
    (origin : Origin) (message : String) :
    RunsBatches folder batches (inform origin message >>= fun _ => m) := by
  intro w r w' hrun
  rw [bind_of_ok (inform_eq _ _)] at hrun
  obtain ⟨written, hoverlays, hend⟩ := h _ _ _ hrun
  have hlog := (still_noting w .info origin message).paves
  exact ⟨written, (hlog.overlays folder).trans hoverlays, hend⟩

/-- **Batches, and then others.** -/
theorem RunsBatches.append {m n : Run (List Path)} (hm : RunsBatches folder batches m)
    (hn : RunsBatches folder more n) :
    RunsBatches folder (batches ++ more) (do
      let paths ← m
      let others ← n
      return paths ++ others) := by
  intro w r w' h
  cases hfirst : m w with
  | mk first v =>
  obtain ⟨written, hoverlays, hrun, hpaths⟩ := hm _ _ _ hfirst
  cases first with
  | error e =>
    -- the other batches are not come to
    rw [bind_of_error hfirst] at h
    cases h
    exact ⟨written, hoverlays, hrun.append_failed _, fun _ h => by cases h⟩
  | ok paths =>
    rw [bind_of_ok hfirst] at h
    cases hrest : n v with
    | mk rest u =>
    obtain ⟨others, hoverlays', hrun', hpaths'⟩ := hn _ _ _ hrest
    refine ⟨written ++ others, ?_⟩
    cases rest with
    | error e =>
      rw [bind_of_error hrest] at h
      cases h
      exact ⟨hoverlays.trans hoverlays', hrun.append hrun', fun _ h => by cases h⟩
    | ok more =>
      rw [bind_of_ok hrest] at h
      cases h
      refine ⟨hoverlays.trans hoverlays', hrun.append hrun', fun _ h => ?_⟩
      rw [← Except.ok.inj h, hpaths _ rfl, hpaths' _ rfl, List.map_append]

/-- The files of resources are written batch by batch. -/
theorem runsBatches_generateResources (g : Generation) (resources : List Resource) :
    RunsBatches g.output (resources.map (resourceFiles g)) (generateResources g resources) := by
  induction resources with
  | nil => exact runsBatches_nil _
  | cons resource resources ih =>
    have hfirst : RunsBatches g.output [resourceFiles g resource] (generateResource g resource) :=
      (runsBatches_singleton (writesBelow_writeArtifacts _ _ _)).after_inform _ _
    exact hfirst.append ih

end ApiNodes.Run
