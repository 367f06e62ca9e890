import ApiNodes.Proofs.Run.Apart
import ApiNodes.Proofs.Run.Returns
import ApiNodes.Proofs.Text.Pieces

namespace ApiNodes.Run

/-!
# Scratch copies

A run keeps a scratch copy of its document while it works on it, and removes the copy however the
work ends.

* `copiesAfter_drop_keep` — a copy that is kept and removed leaves the others as they were;
* `Visit` — the steps that a run makes in the folder of scratch copies, of which there are two at
  most;
* `visit_withCopy`, `withCopy_withRemovals` — what a run leaves there, and that it ends in the same
  way whether or not the copy can be removed;
* `leaves_no_copy` — generations leave no copy behind.
-/

variable {α : Type} {w : World} {m : Run α} {found : Run (Value × String)} {work : Loaded → Run α}
  {before after steps : List ScratchStep} {returned removable : Prop}

/-! ### Copies -/

/-- The numbers of copies are taken from the steps that were made. -/
theorem lt_of_mem_copiesAfter {copy : Nat × String} (h : copy ∈ copiesAfter steps) :
    copy.1 < steps.length := by
  induction steps with
  | nil => cases h
  | cons step before ih =>
    rw [List.length_cons]
    cases step with
    | keep content =>
      rw [copiesAfter, List.mem_append, List.mem_singleton] at h
      rcases h with h | rfl
      · have hlt := ih h
        omega
      · exact Nat.lt_succ_self _
    | drop number =>
      have hlt := ih (List.mem_of_mem_filter h)
      omega

/-- **A copy that is kept and removed again** leaves those that were there. -/
theorem copiesAfter_drop_keep (before : List ScratchStep) (content : String) :
    copiesAfter (.drop before.length :: .keep content :: before) = copiesAfter before := by
  -- none of the earlier copies has the number of the new one
  have hothers : (copiesAfter before).filter (·.1 != before.length) = copiesAfter before := by
    refine List.filter_eq_self.mpr fun copy hcopy => ?_
    have hlt := lt_of_mem_copiesAfter hcopy
    exact bne_iff_ne.mpr (by omega)
  rw [copiesAfter, copiesAfter, List.filter_append, hothers]
  simp

/-- The steps of a run in the folder of scratch copies: it fails before a copy is kept, or it keeps
    one, which stays if copies cannot be removed and else is removed. -/
inductive Visit (returned removable : Prop) (before : List ScratchStep) : List ScratchStep → Prop
  | none (h : ¬returned) : Visit returned removable before before
  | left (content : String) (h : ¬removable) :
      Visit returned removable before (.keep content :: before)
  | restored (content : String) (h : removable) :
      Visit returned removable before (.drop before.length :: .keep content :: before)

/-- The copies of before are there afterwards, and no others, if copies can be removed. -/
theorem Visit.copies (h : Visit returned removable before after) (hremovable : removable) :
    copiesAfter after = copiesAfter before := by
  cases h with
  | none _ => rfl
  | left content hnot => exact absurd hremovable hnot
  | restored content _ => exact copiesAfter_drop_keep before content

/-- No step of before is taken back. -/
theorem Visit.suffix (h : Visit returned removable before after) : before <:+ after := by
  cases h with
  | none _ => exact List.suffix_refl _
  | left content _ => exact List.suffix_cons _ _
  | restored content _ => exact (List.suffix_cons _ _).trans (List.suffix_cons _ _)

/-- A run that returns kept a copy. -/
theorem Visit.kept (h : Visit returned removable before after) (hreturned : returned) :
    ∃ content, .keep content :: before <:+ after := by
  cases h with
  | none hnot => exact absurd hreturned hnot
  | left content _ => exact ⟨content, List.suffix_refl _⟩
  | restored content _ => exact ⟨content, List.suffix_cons _ _⟩

/-- **At no time** is there more than one copy more than before. -/
theorem Visit.length_le (h : Visit returned removable before after) (hbefore : before <:+ steps)
    (hafter : steps <:+ after) :
    (copiesAfter steps).length ≤ (copiesAfter before).length + 1 := by
  -- the times of the visit: before it, while the copy is there, and after it is removed
  have htimes : steps = before ∨ (∃ content, steps = .keep content :: before) ∨
      ∃ content, steps = .drop before.length :: .keep content :: before := by
    have hstart (h : steps <:+ before) : steps = before :=
      h.eq_of_length_le hbefore.length_le
    have hkept {content : String} (h : steps <:+ .keep content :: before) :
        steps = before ∨ ∃ content, steps = .keep content :: before := by
      rcases List.suffix_cons_iff.mp h with rfl | h
      · exact .inr ⟨content, rfl⟩
      · exact .inl (hstart h)
    cases h with
    | none _ => exact .inl (hstart hafter)
    | left content _ => exact (hkept hafter).imp_right .inl
    | restored content _ =>
      rcases List.suffix_cons_iff.mp hafter with rfl | hafter
      · exact .inr (.inr ⟨content, rfl⟩)
      · exact (hkept hafter).imp_right .inl
  rcases htimes with rfl | ⟨content, rfl⟩ | ⟨content, rfl⟩
  · exact Nat.le_succ _
  · rw [copiesAfter, List.length_append, List.length_singleton]
  · rw [copiesAfter_drop_keep]
    exact Nat.le_succ _

/-! ### Runs -/

/-- Work on a document that is found, while a scratch copy of it is kept. -/
def withCopy (found : Run (Value × String)) (work : Loaded → Run α) : Run α := do
  let (document, source) ← found
  let loaded ← keep document source
  ensuring (work loaded) (dropScratch loaded.scratch)

/-- The world in which removals are denied at other paths. -/
def World.withRemovals (w : World) (paths : List String) : World :=
  { w with denied := { w.denied with remove := paths } }

/-- Removing a copy is a step, unless it is denied. -/
theorem scratchSteps_dropScratch (number : Nat) (w : World) :
    (dropScratch number w).2.scratchSteps =
      if w.scratchPath ∈ w.denied.remove then w.scratchSteps
      else .drop number :: w.scratchSteps := by
  rw [dropScratch_eq]
  split_ifs <;> rfl

/-- It does nothing to the tree. -/
theorem tree_dropScratch (number : Nat) (w : World) : (dropScratch number w).2.tree = w.tree :=
  (still_dropScratch number w _ _ rfl).tree

/-- **What work with a copy leaves** in the folder of scratch copies, however it ends. -/
theorem visit_withCopy (hfound : Apart found) (hwork : ∀ loaded, Apart (work loaded)) (w : World) :
    Visit (∃ x, (withCopy found work w).1 = .ok x) (w.scratchPath ∉ w.denied.remove)
      w.scratchSteps (withCopy found work w).2.scratchSteps := by
  have hattic := hfound.attic w
  cases hrun : found w with
  | mk result v =>
  rw [hrun] at hattic
  obtain ⟨hsteps, hpath, hremove⟩ := Attic.mk.inj hattic
  rw [← hsteps, ← hpath, ← hremove]
  unfold withCopy
  cases result with
  | error e =>
    rw [bind_of_error hrun]
    exact .none fun ⟨x, hx⟩ => nomatch hx
  | ok found =>
    rw [bind_of_ok hrun]
    dsimp only
    rcases keep_cases found.1 found.2 with ⟨e, hkeep⟩ | ⟨version, content, hkeep⟩
    · rw [bind_of_error (hkeep v)]
      exact .none fun ⟨x, hx⟩ => nomatch hx
    · specialize hkeep v
      split_ifs at hkeep with hdenied
      · rw [bind_of_error hkeep]
        exact .none fun ⟨x, hx⟩ => nomatch hx
      · rw [bind_of_ok hkeep, ensuring_dropScratch_eq, scratchSteps_dropScratch]
        -- the work leaves the attic with the new copy as it is
        obtain ⟨hsteps', hpath', hremove'⟩ := Attic.mk.inj ((hwork _).attic _)
        rw [hsteps', hpath', hremove']
        split_ifs with hremovable
        · exact .left content (not_not_intro hremovable)
        · exact .restored content hremovable

/-- A computation apart from the scratch copies does what it does whether they can be removed. -/
theorem Apart.withRemovals (h : Apart m) {paths : List String}
    (hpaths : ClearAlike paths w.denied.remove) :
    m (w.withRemovals paths) = ((m w).1, (m w).2.withRemovals paths) := by
  calc m (w.withRemovals paths)
      = ((m w).1, (m w).2.withAttic { w.attic with unremovable := paths }) :=
      h w { w.attic with unremovable := paths } hpaths
    _ = ((m w).1, (m w).2.withRemovals paths) := by
      rw [← h.attic w]
      rfl

/-- So does keeping a document. -/
theorem keep_withRemovals (document : Value) (source : String) (w : World) (paths : List String) :
    keep document source (w.withRemovals paths) =
      ((keep document source w).1, (keep document source w).2.withRemovals paths) := by
  rcases keep_cases document source with ⟨e, hkeep⟩ | ⟨version, content, hkeep⟩
  · rw [hkeep, hkeep]
  · rw [hkeep, hkeep]
    show (if w.scratchPath ∈ w.denied.write then _ else _) = _
    split_ifs <;> rfl

/-- **Work with a copy ends as it does**, and leaves the same tree, whether or not the copy can be
    removed. -/
theorem withCopy_withRemovals (hfound : Apart found) (hwork : ∀ loaded, Apart (work loaded))
    {paths : List String} (hpaths : ClearAlike paths w.denied.remove) :
    (withCopy found work (w.withRemovals paths)).1 = (withCopy found work w).1 ∧
      (withCopy found work (w.withRemovals paths)).2.tree = (withCopy found work w).2.tree := by
  have hsame := hfound.withRemovals hpaths
  have hattic := hfound.attic w
  unfold withCopy
  cases hrun : found w with
  | mk result v =>
  rw [hrun] at hsame hattic
  cases result with
  | error e =>
    rw [bind_of_error hsame, bind_of_error hrun]
    exact ⟨rfl, rfl⟩
  | ok found =>
    rw [bind_of_ok hsame, bind_of_ok hrun]
    dsimp only
    have hsame := keep_withRemovals found.1 found.2 v paths
    cases hkeep : keep found.1 found.2 v with
    | mk kept u =>
    rw [hkeep] at hsame
    cases kept with
    | error e =>
      rw [bind_of_error hsame, bind_of_error hkeep]
      exact ⟨rfl, rfl⟩
    | ok loaded =>
      rw [bind_of_ok hsame, bind_of_ok hkeep, ensuring_dropScratch_eq, ensuring_dropScratch_eq]
      -- nothing was denied or allowed in between, so that both worlds clear the same files away
      have hdenied : u.denied.remove = w.denied.remove := by
        rw [(still_keep _ _ _ _ _ hkeep).denied]
        exact congrArg Attic.unremovable hattic
      rw [(hwork loaded).withRemovals (by rwa [hdenied])]
      refine ⟨rfl, ?_⟩
      rw [tree_dropScratch, tree_dropScratch]
      rfl

/-- A generation works on a document while a scratch copy is kept. -/
theorem generate_eq_withCopy (g : Generation) :
    generate g = withCopy (do
      inform .generation "Starting OpenAPI code generation..."
      fetch g.source g.timeout) (generateFrom g) := by
  unfold generate withCopy
  rw [load_eq_fetch]
  simp only [bind_assoc]

/-- So does a generation of webhook files. -/
theorem generateWebhooks_eq_withCopy (g : WebhookGeneration) :
    generateWebhooks g = withCopy (do
      inform .webhooks "Generating webhook events from OpenAPI spec..."
      fetch g.source g.timeout) (generateWebhooksFrom g) := by
  unfold generateWebhooks withCopy
  rw [load_eq_fetch]
  simp only [bind_assoc]

/-! ### No copy is left -/

/-- Scratch copies are spelled like no file that a generation clears away. -/
def World.CopiesApart (w : World) : Prop :=
  ∀ ending ∈ clearedEndings, Text.endsWith ending w.scratchPath.toList = false

instance (w : World) : Decidable w.CopiesApart :=
  inferInstanceAs (Decidable (∀ ending ∈ clearedEndings, _ = false))

/-- They are not where they are spelled as JSON files. -/
theorem copiesApart_of_json (h : Text.endsWith ".json" w.scratchPath.toList = true) :
    w.CopiesApart := by
  have hlonger : ∀ ending ∈ clearedEndings, ".json".toList.length ≤ ending.toList.length := by
    decide
  have hother : ∀ ending ∈ clearedEndings, ¬".json".toList <:+ ending.toList := by decide
  intro ending hending
  by_contra hends
  have hboth := Text.endsWith_iff.mp (Bool.eq_true_of_not_eq_false hends)
  exact hother ending hending
    (List.suffix_of_suffix_length_le (Text.endsWith_iff.mp h) hboth (hlonger ending hending))

/-- A computation that leaves no scratch copy behind in a world. -/
structure Tidy (w : World) (m : Run α) : Prop where
  /-- If copies can be removed, those that are there in the end are those of before. -/
  restores : w.scratchPath ∉ w.denied.remove → (m w).2.scratch = w.scratch
  /-- What was done in the folder of copies stays done. -/
  goesOn : w.scratchSteps <:+ (m w).2.scratchSteps
  /-- If it returns, it kept a copy on the way. -/
  keeps : (∃ x, (m w).1 = .ok x) →
    ∃ content, .keep content :: w.scratchSteps <:+ (m w).2.scratchSteps
  /-- At no time on the way are there more than one copy more than before. -/
  oneMore : ∀ steps, w.scratchSteps <:+ steps → steps <:+ (m w).2.scratchSteps →
    (copiesAfter steps).length ≤ w.scratch.length + 1
  /-- Whether copies can be removed makes no difference to how it ends and to its files. -/
  unmoved : w.CopiesApart → ∀ paths,
    (∀ path, path ≠ w.scratchPath → (path ∈ paths ↔ path ∈ w.denied.remove)) →
      (m (w.withRemovals paths)).1 = (m w).1 ∧
        (m (w.withRemovals paths)).2.tree = (m w).2.tree

/-- Where nothing but the removal of copies is denied in addition, a tidy computation ends as it
    does without that. -/
theorem Tidy.unmoved_of_denied {w' : World} {r : Except RunError α} (h : Tidy w m)
    (hname : w.CopiesApart) (hrun : m w = (r, w')) :
    ∃ w'', m (w.withRemovals (w.scratchPath :: w.denied.remove)) = (r, w'') ∧
      w''.tree = w'.tree := by
  have hothers (path : String) (hpath : path ≠ w.scratchPath) :
      path ∈ w.scratchPath :: w.denied.remove ↔ path ∈ w.denied.remove := by
    rw [List.mem_cons, or_iff_right hpath]
  obtain ⟨hsame, htree⟩ := h.unmoved hname _ hothers
  rw [hrun] at hsame htree
  cases hended : m (w.withRemovals (w.scratchPath :: w.denied.remove)) with
  | mk r' w'' =>
    rw [hended] at hsame htree
    exact ⟨w'', Prod.ext hsame rfl, htree⟩

/-- Work with a copy leaves none. -/
theorem tidy_withCopy (hfound : Apart found) (hwork : ∀ loaded, Apart (work loaded)) (w : World) :
    Tidy w (withCopy found work) where
  restores := (visit_withCopy hfound hwork w).copies
  goesOn := (visit_withCopy hfound hwork w).suffix
  keeps := (visit_withCopy hfound hwork w).kept
  oneMore _ := (visit_withCopy hfound hwork w).length_le
  unmoved hname paths hpaths := by
    refine withCopy_withRemovals hfound hwork fun p hp => hpaths p.text fun htext => ?_
    obtain ⟨ending, hending, hends⟩ := hp
    have hsuffix := (Text.endsWith_iff.mp hends).trans p.name_suffix_text
    rw [htext, ← Text.endsWith_iff, hname ending hending] at hsuffix
    cases hsuffix

/-- **No scratch copy is left over** by a generation of a node or of webhook files, whatever its
    document, its settings, the tree and what is denied. -/
theorem leaves_no_copy (w : World) :
    (∀ g, Tidy w (generate g)) ∧ ∀ g, Tidy w (generateWebhooks g) := by
  constructor
  · intro g
    rw [generate_eq_withCopy]
    exact tidy_withCopy ((apart_record _ _ _).bind fun _ => apart_fetch _ _)
      (apart_generateFrom g) w
  · intro g
    rw [generateWebhooks_eq_withCopy]
    exact tidy_withCopy ((apart_record _ _ _).bind fun _ => apart_fetch _ _)
      (apart_generateWebhooksFrom g) w

/-- So it is with the document that tries to leave its texts, where the removal is denied too. -/
theorem leaves_no_copy_hostileWorld :
    ∃ outcome w' w'' content,
      generate { output := .ofString "node" } hostileWorld = (.ok outcome, w') ∧
      [.keep content] <:+ w'.scratchSteps ∧ w'.scratch = [] ∧
      generate { output := .ofString "node" }
        (hostileWorld.withRemovals [hostileWorld.scratchPath]) = (.ok outcome, w'') ∧
      w''.tree = w'.tree := by
  obtain ⟨outcome, w', hrun⟩ := generate_hostileWorld
  have htidy := (leaves_no_copy hostileWorld).1 { output := .ofString "node" }
  obtain ⟨content, hkept⟩ := htidy.keeps ⟨outcome, by rw [hrun]⟩
  have hscratch := htidy.restores List.not_mem_nil
  rw [hrun] at hkept hscratch
  obtain ⟨w'', hdenied, htree⟩ := htidy.unmoved_of_denied (by decide) hrun
  exact ⟨outcome, w', w'', content, hrun, hkept, hscratch, hdenied, htree⟩

end ApiNodes.Run
