import ApiNodes.Proofs.Files.Open
import ApiNodes.Proofs.Run.Steps
import ApiNodes.Run.Generation
import Mathlib.Order.Defs.Unbundled

namespace ApiNodes.Run

open Files (Location Path Proper Tree)

/-!
# What the steps of a run change

`Keeps` relates the world that a computation starts in to the one it ends in, whether it returns
or fails.  A relation that is a preorder goes through the steps of a computation.

* `Still` — nothing but the log, the clock and the scratch copies is changed;
* `Paves`, `Roads` — folders are added;
* `makeFolder_cases`, `putFile_cases`, `dropFile_cases` — what an operation on files does when it
  is not refused.
-/

variable {α β : Type} {R S : World → World → Prop} {m : Run α} {w v w' : World} {p : Path}
  {l : Location}

/-! ### Relations between worlds -/

/-- The files of a world. -/
abbrev World.files (w : World) : Location → Option ByteArray := w.tree.file?

/-- A world in which nothing was done to the tree. -/
structure Still (w w' : World) : Prop where
  tree : w'.tree = w.tree
  current : w'.current = w.current
  top : w'.top = w.top
  denied : w'.denied = w.denied
  scratchPath : w'.scratchPath = w.scratchPath

/-- A world in which a run went on: paths start where they did, the same operations are denied,
    and what was a folder is one. -/
structure Continues (w w' : World) : Prop where
  whole : w'.tree.whole = w.tree.whole
  folders : ∀ l, w.tree.at? l = some .folder → w'.tree.at? l = some .folder
  sound : w.tree.Sound → w'.tree.Sound
  current : w'.current = w.current
  top : w'.top = w.top
  denied : w'.denied = w.denied
  scratchPath : w'.scratchPath = w.scratchPath

/-- A world in which folders were made. -/
structure Paves (w w' : World) : Prop extends Continues w w' where
  files : w'.files = w.files

/-- A world with a sound tree, in which the current folder is there. -/
structure World.Sound (w : World) : Prop where
  tree : w.tree.Sound
  current : w.tree.at? w.current = some .folder

/-- The current folder is not spelled with steps back. -/
theorem World.Sound.onward (h : w.Sound) : ".." ∉ w.current :=
  fun hmem => (h.tree.proper _ (by rw [h.current]; rfl) _ hmem).onward rfl

/-- A world stays sound while a run goes on. -/
theorem Continues.soundWorld (h : Continues w w') (hw : w.Sound) : w'.Sound where
  tree := h.sound hw.tree
  current := by
    rw [h.current]
    exact h.folders _ hw.current

/-- A world in which folders were made, at some locations. -/
structure Roads (W : Location → Location → Prop) (w w' : World) : Prop extends Paves w w' where
  grounds : ∀ l, w'.tree.at? l = some .folder → w.tree.at? l = some .folder ∨ W w.current l

/-- Nothing is done in no time. -/
theorem Still.refl (w : World) : Still w w := ⟨rfl, rfl, rfl, rfl, rfl⟩

/-- Nothing is done, and then nothing. -/
theorem Still.trans (h : Still w v) (h' : Still v w') : Still w w' where
  tree := h'.tree.trans h.tree
  current := h'.current.trans h.current
  top := h'.top.trans h.top
  denied := h'.denied.trans h.denied
  scratchPath := h'.scratchPath.trans h.scratchPath

/-- A run goes on from where it is. -/
theorem Continues.refl (w : World) : Continues w w :=
  ⟨rfl, fun _ h => h, fun h => h, rfl, rfl, rfl, rfl⟩

/-- A run goes on further. -/
theorem Continues.trans (h : Continues w v) (h' : Continues v w') : Continues w w' where
  whole := h'.whole.trans h.whole
  folders l hl := h'.folders l (h.folders l hl)
  sound hw := h'.sound (h.sound hw)
  current := h'.current.trans h.current
  top := h'.top.trans h.top
  denied := h'.denied.trans h.denied
  scratchPath := h'.scratchPath.trans h.scratchPath

/-- Where nothing is done no folders are made. -/
theorem Still.paves (h : Still w w') : Paves w w' where
  whole := by rw [h.tree]
  folders l hl := by rwa [h.tree]
  sound hw := by rwa [h.tree]
  current := h.current
  top := h.top
  denied := h.denied
  scratchPath := h.scratchPath
  files := by rw [World.files, h.tree]

/-- Folders are made, and then others. -/
theorem Paves.trans (h : Paves w v) (h' : Paves v w') : Paves w w' where
  toContinues := h.toContinues.trans h'.toContinues
  files := h'.files.trans h.files

/-- No folders are made where nothing is done. -/
theorem Still.roads {W : Location → Location → Prop} (h : Still w w') : Roads W w w' :=
  ⟨h.paves, fun _ hl => .inl (h.tree ▸ hl)⟩

/-- Folders are made, and then others. -/
theorem Roads.trans {W : Location → Location → Prop} (h : Roads W w v) (h' : Roads W v w') :
    Roads W w w' where
  toPaves := h.toPaves.trans h'.toPaves
  grounds l hl := by
    rcases h'.grounds l hl with hl | hl
    · exact h.grounds l hl
    · exact .inr (h.current ▸ hl)

instance (W : Location → Location → Prop) : IsPreorder World (Roads W) where
  refl w := (Still.refl w).roads
  trans _ _ _ := Roads.trans

instance : IsPreorder World Still where
  refl := Still.refl
  trans _ _ _ := Still.trans

/-- The log is no part of the tree. -/
theorem still_noting (w : World) (level : Level) (origin : Origin) (message : String) :
    Still w (w.noting level origin message) := ⟨rfl, rfl, rfl, rfl, rfl⟩

/-- A run goes on after it wrote to the log. -/
theorem Continues.noting (h : Continues w v) (level : Level) (origin : Origin) (message : String) :
    Continues w (v.noting level origin message) :=
  h.trans (still_noting v level origin message).paves.toContinues

/-! ### Computations -/

/-- A computation that relates the world it starts in to the one it ends in. -/
def Keeps (R : World → World → Prop) (m : Run α) : Prop := ∀ w r w', m w = (r, w') → R w w'

/-- A weaker relation. -/
theorem Keeps.mono (h : Keeps R m) (hRS : ∀ w w', R w w' → S w w') : Keeps S m :=
  fun w r w' hrun => hRS w w' (h w r w' hrun)

/-- A computation that does nothing to the tree makes no folders. -/
theorem Keeps.paves (h : Keeps Still m) : Keeps Paves m := h.mono fun _ _ => Still.paves

/-- The world that is looked at is the one that a computation starts in. -/
theorem get_bind (f : World → Run α) : (get >>= f) w = f w w := rfl

/-- A computation whose refusals are caught. -/
theorem Keeps.attempt (hm : Keeps R m) : Keeps R (Run.attempt m) := by
  intro w r w' h
  unfold Run.attempt at h
  cases hrun : m w with
  | mk result v =>
    rw [hrun] at h
    have hv := hm w result v hrun
    cases result with
    | ok a =>
      cases h
      exact hv
    | error e => cases e <;> cases h <;> exact hv

/-- A computation fails, or it returns and the next one goes on. -/
theorem Keeps.bind_cases {f : α → Run β} {r : Except RunError β} (hm : Keeps R m)
    (h : (m >>= f) w = (r, w')) :
    (∃ e, r = .error e ∧ m w = (.error e, w') ∧ R w w') ∨
      ∃ a v, m w = (.ok a, v) ∧ R w v ∧ f a v = (r, w') := by
  cases hrun : m w with
  | mk result v =>
    have hv := hm w result v hrun
    cases result with
    | error e =>
      rw [bind_of_error hrun] at h
      cases h
      exact .inl ⟨e, rfl, rfl, hv⟩
    | ok a =>
      rw [bind_of_ok hrun] at h
      exact .inr ⟨a, v, rfl, hv, h⟩

/-- Nor at any locations. -/
theorem Keeps.roads {W : Location → Location → Prop} (h : Keeps Still m) : Keeps (Roads W) m :=
  h.mono fun _ _ => Still.roads

section Preorder

variable [IsPreorder World R]

/-- A value. -/
theorem keeps_pure (a : α) : Keeps R (pure a) := by
  intro w r w' h
  cases h
  exact refl_of R w

/-- A failure. -/
theorem keeps_throw (e : RunError) : Keeps R (throw e : Run α) := by
  intro w r w' h
  cases h
  exact refl_of R w

/-- Looking at the world. -/
theorem keeps_get : Keeps R (get : Run World) := by
  intro w r w' h
  cases h
  exact refl_of R w

/-- One computation after another, for what the first one returns. -/
theorem Keeps.bind_returned {f : α → Run β} (hm : Keeps R m)
    (hf : ∀ w a v, m w = (.ok a, v) → Keeps R (f a)) : Keeps R (m >>= f) := by
  intro w r w' h
  cases r with
  | ok b =>
    obtain ⟨a, v, hrun, h⟩ := bind_eq_ok_iff.mp h
    exact trans_of R (hm w _ v hrun) (hf w a v hrun v _ w' h)
  | error e =>
    rcases bind_eq_error_iff.mp h with h | ⟨a, v, hrun, h⟩
    · exact hm w _ w' h
    · exact trans_of R (hm w _ v hrun) (hf w a v hrun v _ w' h)

/-- One computation after another. -/
theorem Keeps.bind {f : α → Run β} (hm : Keeps R m) (hf : ∀ a, Keeps R (f a)) :
    Keeps R (m >>= f) :=
  hm.bind_returned fun _ a _ _ => hf a

end Preorder

/-! ### Questions -/

/-- Writing to the log. -/
theorem still_record (level : Level) (origin : Origin) (message : String) :
    Keeps Still (record level origin message) := by
  intro w r w' h
  cases h
  exact still_noting w level origin message

/-- An answer of the tree. -/
theorem still_orRefuse (p : Path) (answer : Except Files.Fault α) :
    Keeps Still (orRefuse p answer) := by
  cases answer with
  | ok a => exact keeps_pure a
  | error fault => exact keeps_throw _

/-- The check of a path. -/
theorem still_checkNull (p : Path) : Keeps Still (checkNull p) := by
  unfold checkNull
  split
  · exact keeps_throw _
  · exact keeps_pure ()

/-- A question about a path. -/
theorem still_entryAt? (p : Path) : Keeps Still (entryAt? p) := by
  unfold entryAt?
  split
  · exact keeps_pure none
  · refine keeps_get.bind fun w => ?_
    split
    · exact keeps_pure _
    · exact keeps_pure _
    · exact keeps_pure _
    · exact keeps_throw _

/-- The question for a file. -/
theorem still_isFile (p : Path) : Keeps Still (isFile p) := by
  refine (still_entryAt? p).bind fun e => ?_
  split <;> exact keeps_pure _

/-- The question for a folder. -/
theorem still_isFolder (p : Path) : Keeps Still (isFolder p) := by
  refine (still_entryAt? p).bind fun e => ?_
  split <;> exact keeps_pure _

/-- The question for anything. -/
theorem still_isThere (p : Path) : Keeps Still (isThere p) :=
  (still_entryAt? p).bind fun _ => keeps_pure _

/-- Reading a file. -/
theorem still_fileContent (p : Path) : Keeps Still (fileContent p) :=
  (still_checkNull p).bind fun _ => keeps_get.bind fun _ => still_orRefuse p _

/-- What is rendered is returned. -/
theorem still_rendered (text : Except Template.RenderError α) : Keeps Still (rendered text) := by
  cases text with
  | error e => exact keeps_throw _
  | ok a => exact keeps_pure a

/-! ### Documents and versions -/

/-- The clock is no part of the tree. -/
theorem still_stampNow : Keeps Still stampNow := by
  have htick : Keeps Still tick := by
    intro w r w' h
    unfold tick at h
    rw [get_bind] at h
    rcases hclock : w.clock with _ | ⟨now, _ | ⟨later, rest⟩⟩ <;> rw [hclock] at h <;> cases h <;>
      exact ⟨rfl, rfl, rfl, rfl, rfl⟩
  exact htick.bind fun _ => keeps_pure _

/-- A scratch copy is kept unless that is denied. -/
theorem keepScratch_eq (content : String) (w : World) :
    keepScratch content w =
      if w.scratchPath ∈ w.denied.write then (.error (.file ⟨.denied, w.scratchPath⟩), w)
      else (.ok w.scratchSteps.length,
        { w with scratchSteps := .keep content :: w.scratchSteps }) := by
  show (if w.scratchPath ∈ w.denied.write then throw (.file ⟨.denied, w.scratchPath⟩) else do
    set { w with scratchSteps := .keep content :: w.scratchSteps }
    return w.scratchSteps.length : Run Nat) w = _
  split_ifs <;> rfl

/-- A scratch copy is removed unless that is denied, and the log says so. -/
theorem dropScratch_eq (number : Nat) (w : World) :
    dropScratch number w =
      if w.scratchPath ∈ w.denied.remove then
        recordCleanup w.scratchPath (some ⟨.denied, w.scratchPath⟩) w
      else recordCleanup w.scratchPath none
        { w with scratchSteps := .drop number :: w.scratchSteps } := by
  show (if w.scratchPath ∈ w.denied.remove then
      recordCleanup w.scratchPath (some ⟨.denied, w.scratchPath⟩)
    else do
      set { w with scratchSteps := .drop number :: w.scratchSteps }
      recordCleanup w.scratchPath none : Run Unit) w = _
  split_ifs <;> rfl

/-- A computation that ends in the removal of a scratch copy ends as it would have. -/
theorem ensuring_dropScratch_eq (m : Run α) (number : Nat) (w : World) :
    ensuring m (dropScratch number) w = ((m w).1, (dropScratch number (m w).2).2) := by
  unfold ensuring
  cases m w with
  | mk result v =>
    have hdrop := dropScratch_eq number v
    split_ifs at hdrop <;> cases result <;> simp only [hdrop] <;> rfl

/-- **Keeping a document.**  It has no text that could be kept, or a scratch copy of it is kept
    unless that is denied. -/
theorem keep_cases (document : Value) (source : String) :
    (∃ e, ∀ w, keep document source w = (.error e, w)) ∨
      ∃ version content, ∀ w, keep document source w =
        if w.scratchPath ∈ w.denied.write then (.error (.file ⟨.denied, w.scratchPath⟩), w)
        else (.ok ⟨document, version, w.scratchSteps.length, source⟩,
          ({ w with scratchSteps := .keep content :: w.scratchSteps }.noting .info .download
            ("Using OpenAPI spec version: " ++ version)).noting .debug .download
              ("Temporary file: " ++ w.scratchPath)) := by
  unfold keep
  cases Api.version? document with
  | none => exact .inl ⟨_, fun _ => rfl⟩
  | some version =>
    cases Json.document .asText document with
    | error fault => exact .inl ⟨_, fun _ => rfl⟩
    | ok content =>
      refine .inr ⟨version, content, fun w => ?_⟩
      have hkeep := keepScratch_eq content w
      split_ifs at hkeep ⊢
      · exact bind_of_error hkeep
      · exact bind_of_ok hkeep

/-- The scratch copies are no part of the tree. -/
theorem still_dropScratch (number : Nat) : Keeps Still (dropScratch number) := by
  intro w r w' h
  rw [dropScratch_eq] at h
  split_ifs at h <;> cases h <;> exact ⟨rfl, rfl, rfl, rfl, rfl⟩

/-- Nor is the one that is kept of a document. -/
theorem still_keep (document : Value) (source : String) : Keeps Still (keep document source) := by
  intro w r w' h
  rcases keep_cases document source with ⟨e, hkeep⟩ | ⟨version, content, hkeep⟩
  · rw [hkeep] at h
    cases h
    exact Still.refl w
  · rw [hkeep] at h
    split_ifs at h <;> cases h <;> exact ⟨rfl, rfl, rfl, rfl, rfl⟩

/-- Loading a document writes no files. -/
theorem still_load (source : Option String) (timeout : Value) :
    Keeps Still (load source timeout) := by
  have hask (address : String) : Keeps Still (ask address timeout) := by
    intro w r w' h
    cases h
    exact ⟨rfl, rfl, rfl, rfl, rfl⟩
  have hdownload (source : Option String) : Keeps Still (download source timeout) := by
    refine (still_record _ _ _).bind fun _ => (hask _).bind fun reply => ?_
    split
    · exact still_keep _ _
    · exact keeps_throw _
  have hfile (p : Path) : Keeps Still (loadFile p) := by
    refine (still_record _ _ _).bind fun _ => (still_fileContent p).bind fun data => ?_
    split
    · exact still_keep _ _
    · exact keeps_throw _
  cases source with
  | none => exact hdownload none
  | some s =>
    refine (still_isFile _).bind fun there => ?_
    split
    · exact hfile _
    · exact hdownload _

/-- Neither does an extraction. -/
theorem still_extractResources (config : Api.Config) (document : Value) :
    Keeps Still (extractResources config document) := by
  have hrecord (renamed : List (Api.Endpoint × String)) :
      Keeps Still (recordRenamings renamed) := by
    induction renamed with
    | nil => exact keeps_pure ()
    | cons first rest ih => exact (still_record _ _ _).bind fun _ => ih
  refine (hrecord _).bind fun _ => ?_
  split
  · exact keeps_pure _
  · exact keeps_throw _

/-- Nor does looking at the versions. -/
theorem still_versionsOrFresh (p : Path) (source : ApiSource) :
    Keeps Still (versionsOrFresh p source) := by
  have hread : Keeps Still (readVersions p) := by
    unfold readVersions
    split
    · exact keeps_pure none
    · refine (still_fileContent p).attempt.bind fun data => ?_
      split
      · exact keeps_pure none
      · split
        · exact keeps_pure _
        · exact keeps_throw _
  refine hread.bind fun found => ?_
  split
  · exact keeps_pure _
  · exact still_stampNow.bind fun _ => keeps_pure _

/-! ### Answers -/

/-- The answer to a question about a path that leads to an entry. -/
theorem entryAt?_eq {e : Files.Entry} (hnull : p.hasNull = false)
    (h : w.tree.entry w.current p = .ok e) : entryAt? p w = (.ok (some e), w) := by
  unfold entryAt?
  rw [hnull]
  simp only [Bool.false_eq_true, if_false]
  rw [get_bind, h]
  rfl

/-- A question about a path is answered, or refused if the path is not usable. -/
theorem entryAt?_cases {r : Except RunError (Option Files.Entry)} (h : entryAt? p w = (r, w')) :
    w' = w ∧ (r = .ok none ∨
      (∃ e, r = .ok (some e) ∧ p.hasNull = false ∧ w.tree.entry w.current p = .ok e) ∨
      ∃ refusal, r = .error (.file refusal) ∧ ¬p.Usable w.tree.whole) := by
  unfold entryAt? at h
  by_cases hnull : p.hasNull = true
  · rw [if_pos hnull] at h
    cases h
    exact ⟨rfl, .inl rfl⟩
  · rw [if_neg hnull, get_bind] at h
    cases hentry : w.tree.entry w.current p with
    | ok e =>
      rw [hentry] at h
      cases h
      exact ⟨rfl, .inr (.inl ⟨e, rfl, by simpa using hnull, rfl⟩)⟩
    | error fault =>
      rw [hentry] at h
      by_cases hfault : fault = .missing ∨ fault = .notFolder
      · -- these two say that nothing is there
        rcases hfault with rfl | rfl <;> cases h <;> exact ⟨rfl, .inl rfl⟩
      · have husable : ¬p.Usable w.tree.whole :=
          fun husable => hfault (Tree.entry_error_of_usable husable hentry)
        cases fault <;> simp only [reduceCtorEq, or_self, or_true, true_or, not_true,
          not_false_eq_true] at hfault <;> cases h <;>
          exact ⟨rfl, .inr (.inr ⟨_, rfl, husable⟩)⟩

/-- Where a question is answered with an entry, the path leads to it. -/
theorem entryAt?_returned {e : Files.Entry} (h : entryAt? p w = (.ok (some e), w')) :
    p.hasNull = false ∧ w.tree.entry w.current p = .ok e ∧ w' = w := by
  obtain ⟨rfl, hnone | ⟨e', he, hnull, hentry⟩ | ⟨refusal, hrefusal, -⟩⟩ := entryAt?_cases h
  · cases hnone
  · cases he
    exact ⟨hnull, hentry, rfl⟩
  · cases hrefusal

/-- The question for a file is answered, or refused if the path is not usable. -/
theorem isFile_cases {r : Except RunError Bool} (h : isFile p w = (r, w')) :
    w' = w ∧ ((∃ there, r = .ok there) ∨
      ∃ refusal, r = .error (.file refusal) ∧ ¬p.Usable w.tree.whole) := by
  cases hfound : entryAt? p w with
  | mk found v =>
  obtain ⟨rfl, hanswer⟩ := entryAt?_cases hfound
  unfold isFile at h
  rcases hanswer with rfl | ⟨e, rfl, -, -⟩ | ⟨refusal, rfl, husable⟩
  · rw [bind_of_ok hfound] at h
    cases h
    exact ⟨rfl, .inl ⟨_, rfl⟩⟩
  · rw [bind_of_ok hfound] at h
    cases e <;> cases h <;> exact ⟨rfl, .inl ⟨_, rfl⟩⟩
  · rw [bind_of_error hfound] at h
    cases h
    exact ⟨rfl, .inr ⟨refusal, rfl, husable⟩⟩

/-- The question for a file is refused if the path is too long. -/
theorem isFile_of_long (hnull : p.hasNull = false)
    (h : w.tree.entry w.current p = .error .nameTooLong) :
    isFile p w = (.error (.file ⟨.nameTooLong, p.text⟩), w) := by
  have hentry : entryAt? p w = (.error (.file ⟨.nameTooLong, p.text⟩), w) := by
    unfold entryAt?
    rw [hnull]
    simp only [Bool.false_eq_true, if_false]
    rw [get_bind, h]
    rfl
  unfold isFile
  rw [bind_of_error hentry]

/-- There is a folder where one is found. -/
theorem isFolder_returned (h : isFolder p w = (.ok true, w')) :
    p.hasNull = false ∧ w.tree.entry w.current p = .ok .folder ∧ w' = w := by
  obtain ⟨found, v, hfound, h⟩ := bind_eq_ok_iff.mp h
  rcases found with _ | _ | _
  · cases h
  · cases h
    exact entryAt?_returned hfound
  · cases h

/-- There is a folder where a path leads to one. -/
theorem isFolder_eq (hnull : p.hasNull = false) (h : w.tree.entry w.current p = .ok .folder) :
    isFolder p w = (.ok true, w) := by
  unfold isFolder
  rw [bind_of_ok (entryAt?_eq hnull h)]
  rfl

/-- There is something where a path leads to an entry. -/
theorem isThere_eq {e : Files.Entry} (hnull : p.hasNull = false)
    (h : w.tree.entry w.current p = .ok e) : isThere p w = (.ok true, w) := by
  unfold isThere
  rw [bind_of_ok (entryAt?_eq hnull h)]
  rfl

/-- A folder is listed where a path leads to one, unless that is denied. -/
theorem listFolder_eq (hnull : p.hasNull = false) (h : w.tree.entry w.current p = .ok .folder)
    (hdenied : p.text ∉ w.denied.list) :
    listFolder p w = (.ok (w.tree.namesIn (p.location w.current)), w) := by
  unfold listFolder checkNull
  rw [get_bind, if_neg hdenied, hnull]
  show orRefuse p (w.tree.listFolder w.current p) w = _
  rw [Tree.listFolder_eq_ok_iff.mpr ⟨h, rfl⟩]
  rfl

/-! ### Operations -/

/-- A change of the tree is made as a whole, or not at all. -/
theorem change_cases {f : Tree → Location → Except Files.Fault Tree}
    {r : Except RunError Unit} (h : change p f w = (r, w')) :
    (∃ e, r = .error e ∧ w' = w) ∨
      ∃ t, r = .ok () ∧ p.hasNull = false ∧ f w.tree w.current = .ok t ∧
        w' = { w with tree := t } := by
  unfold change checkNull at h
  cases hnull : p.hasNull with
  | true =>
    rw [hnull] at h
    cases h
    exact .inl ⟨_, rfl, rfl⟩
  | false =>
    rw [hnull] at h
    replace h : (orRefuse p (f w.tree w.current) >>= fun t => set { w with tree := t }) w =
      (r, w') := h
    cases hf : f w.tree w.current with
    | error fault =>
      rw [hf] at h
      cases h
      exact .inl ⟨_, rfl, rfl⟩
    | ok t =>
      rw [hf] at h
      cases h
      exact .inr ⟨t, rfl, rfl, rfl, rfl⟩

/-- The last name of a path without null characters is proper. -/
theorem proper_of_hasNull {name : String} (hnull : p.hasNull = false)
    (hname : p.names.getLast? = some name) (hback : name ≠ "..") : Proper name := by
  refine ⟨hback, fun hmem => ?_⟩
  have hall := List.any_eq_false.mp hnull name (List.mem_of_getLast? hname)
  exact hall (List.contains_iff_mem.mpr hmem)

/-- Making a folder, where there was nothing. -/
theorem makeFolder_cases {r : Except RunError Unit} (h : makeFolder p w = (r, w')) :
    (∃ e, r = .error e ∧ w' = w) ∨
      ∃ l, r = .ok () ∧ p.hasNull = false ∧ w.tree.Places w.current p l ∧
        w.tree.at? l = none ∧ w' = { w with tree := w.tree.set l .folder } := by
  rcases change_cases h with hw | ⟨t, rfl, hnull, hmake, rfl⟩
  · exact .inl hw
  · obtain ⟨l, hplaces, hat, rfl⟩ := Tree.makeFolder_spec hmake
    exact .inr ⟨l, rfl, hnull, hplaces, hat, rfl⟩

/-- Writing a file, where there is no folder. -/
theorem putFile_cases {data : ByteArray} {r : Except RunError Unit}
    (h : putFile p data w = (r, w')) :
    (∃ e, r = .error e ∧ w' = w) ∨
      ∃ l, r = .ok () ∧ p.hasNull = false ∧ w.tree.Places w.current p l ∧
        w.tree.at? l ≠ some .folder ∧ w' = { w with tree := w.tree.set l (.file data) } := by
  unfold putFile at h
  rw [get_bind] at h
  split_ifs at h
  · cases h
    exact .inl ⟨_, rfl, rfl⟩
  · rcases change_cases h with hw | ⟨t, rfl, hnull, hput, rfl⟩
    · exact .inl hw
    · obtain ⟨l, hplaces, hat, rfl⟩ := Tree.putFile_spec hput
      exact .inr ⟨l, rfl, hnull, hplaces, hat, rfl⟩

/-- Removing a file. -/
theorem dropFile_cases {r : Except RunError Unit} (h : dropFile p w = (r, w')) :
    (∃ e, r = .error e ∧ w' = w) ∨
      ∃ l data, r = .ok () ∧ p.hasNull = false ∧ w.tree.Places w.current p l ∧
        w.tree.at? l = some (.file data) ∧ w' = { w with tree := w.tree.erase l } := by
  unfold dropFile at h
  rw [get_bind] at h
  split_ifs at h
  · cases h
    exact .inl ⟨_, rfl, rfl⟩
  · rcases change_cases h with hw | ⟨t, rfl, hnull, hdrop, rfl⟩
    · exact .inl hw
    · obtain ⟨l, data, hplaces, hat, rfl⟩ := Tree.dropFile_spec hdrop
      exact .inr ⟨l, data, rfl, hnull, hplaces, hat, rfl⟩

/-- A file is written in its place, unless that is denied. -/
theorem putFile_eq (data : ByteArray) (hdenied : p.text ∉ w.denied.write)
    (hnull : p.hasNull = false) (hplaces : w.tree.Places w.current p l)
    (hfree : w.tree.at? l ≠ some .folder) :
    putFile p data w = (.ok (), { w with tree := w.tree.set l (.file data) }) := by
  unfold putFile change checkNull
  rw [get_bind, if_neg hdenied, hnull]
  show (orRefuse p (w.tree.putFile w.current p data) >>= fun t => set { w with tree := t }) w = _
  rw [Tree.putFile_eq hplaces hfree]
  rfl

/-- A file is removed from its place, unless that is denied. -/
theorem dropFile_eq {data : ByteArray} (hdenied : p.text ∉ w.denied.remove)
    (hnull : p.hasNull = false) (hplaces : w.tree.Places w.current p l)
    (hfile : w.tree.at? l = some (.file data)) :
    dropFile p w = (.ok (), { w with tree := w.tree.erase l }) := by
  unfold dropFile change checkNull
  rw [get_bind, if_neg hdenied, hnull]
  show (orRefuse p (w.tree.dropFile w.current p) >>= fun t => set { w with tree := t }) w = _
  rw [Tree.dropFile_eq hplaces hfile]
  rfl

/-- An entry that is set where no folder stands leaves the folders. -/
theorem continues_set {e : Files.Entry} (hplaces : w.tree.Places w.current p l)
    (hnull : p.hasNull = false) (hfree : w.tree.at? l ≠ some .folder) :
    Continues w { w with tree := w.tree.set l e } where
  whole := rfl
  folders m hm := by
    rwa [w.tree.at?_set l m e]
    rintro rfl
    exact hfree hm
  sound hw := by
    obtain ⟨folder, name, rfl, hfolder, hname, hback⟩ := hplaces.entry
    exact hw.set hfolder (proper_of_hasNull hnull hname hback) hfree
  current := rfl
  top := rfl
  denied := rfl
  scratchPath := rfl

/-- A path that leads somewhere: it can be used, and the folders on its way are there. -/
structure Reaches (p : Path) (w : World) : Prop where
  null : p.hasNull = false
  usable : p.Usable w.tree.whole
  way : w.tree.Way (p.origin w.current) p.names

/-- It leads there when a run went on. -/
theorem Reaches.continues (h : Reaches p w) (hw : Continues w w') : Reaches p w' where
  null := h.null
  usable := hw.whole ▸ h.usable
  way k hk hne := by
    rw [hw.current]
    exact hw.folders _ (h.way k hk hne)

/-- Writing a text, in terms of the files of the world. -/
theorem writeText_cases {text : String} {r : Except RunError Unit}
    (h : writeText p text w = (r, w')) :
    (∃ e, r = .error e ∧ w' = w) ∨
      r = .ok () ∧ Reaches p w' ∧ Continues w w' ∧
        w'.files = Function.update w.files (p.location w.current) (some text.toUTF8) := by
  rcases putFile_cases h with hw | ⟨l, rfl, hnull, hplaces, hfree, rfl⟩
  · exact .inl hw
  · have hreaches : Reaches p w := ⟨hnull, hplaces.usable, hplaces.way⟩
    have hcontinues := continues_set (e := .file text.toUTF8) hplaces hnull hfree
    refine .inr ⟨rfl, hreaches.continues hcontinues, hcontinues, ?_⟩
    rw [← hplaces.location]
    exact Tree.file?_set_file hplaces.ne_nil

/-- A generated file is written after the folders that it stands in were made. -/
theorem writeArtifact_eq_ok_iff {q : Path} :
    writeArtifact p content w = (.ok q, w') ↔
      q = p ∧ ∃ v, makeFolders p.parent w = (.ok (), v) ∧ writeText p content v = (.ok (), w') := by
  constructor
  · intro h
    obtain ⟨result, v, hattempt, hend⟩ := bind_eq_ok_iff.mp h
    rcases attempt_eq_ok_imp hattempt with ⟨_, rfl, hbody⟩ | ⟨refusal, rfl, -⟩
    · obtain ⟨_, u, hmade, hwrite⟩ := bind_eq_ok_iff.mp hbody
      cases hend
      exact ⟨rfl, u, hmade, hwrite⟩
    · cases hend
  · rintro ⟨rfl, v, hmade, hwrite⟩
    have hattempt :
        attempt (do makeFolders q.parent; writeText q content) w = (.ok (.ok ()), w') := by
      rw [attempt, bind_of_ok hmade, hwrite]
    unfold writeArtifact
    rw [bind_of_ok hattempt]
    rfl

/-- Neither does a file that is taken away take a folder. -/
theorem continues_erase {data : ByteArray} (hl : l ≠ [])
    (hfile : w.tree.at? l = some (.file data)) :
    Continues w { w with tree := w.tree.erase l } where
  whole := rfl
  folders m hm := by
    rw [Tree.at?_erase hl, if_neg]
    · exact hm
    · rintro rfl
      rw [hfile] at hm
      cases hm
  sound hw := hw.erase hl hfile
  current := rfl
  top := rfl
  denied := rfl
  scratchPath := rfl

/-- Making a folder, at a location where folders may be made. -/
theorem roads_makeFolder {W : Location → Location → Prop} (hp : ∀ here, W here (p.location here)) :
    Keeps (Roads W) (makeFolder p) := by
  intro w r w' h
  rcases makeFolder_cases h with ⟨e, -, rfl⟩ | ⟨l, -, hnull, hplaces, hat, rfl⟩
  · exact (Still.refl _).roads
  · refine ⟨⟨continues_set hplaces hnull (by simp [hat]), ?_⟩, fun m hm => ?_⟩
    · exact Tree.file?_set_folder hplaces.ne_nil hat
    · rw [Tree.at?_set_eq hplaces.ne_nil] at hm
      split_ifs at hm with hl
      · rw [hl, hplaces.location]
        exact .inr (hp _)
      · exact .inl hm

/-- Making a folder unless there is one. -/
theorem roads_makeFolderOr {W : Location → Location → Prop} (hp : ∀ here, W here (p.location here))
    {onMissing : Files.FileError → Run Unit} (h : ∀ e, Keeps (Roads W) (onMissing e)) :
    Keeps (Roads W) (makeFolderOr p onMissing) := by
  refine (roads_makeFolder hp).attempt.bind fun made => ?_
  split
  · exact keeps_pure ()
  · split
    · exact h _
    · refine (still_isFolder p).roads.bind fun there => ?_
      split
      · exact keeps_pure ()
      · exact keeps_throw _

/-- Where the folders on the way to a path stand, and its own. -/
def OnWay (p : Path) (here l : Location) : Prop :=
  ∃ k, k <+: p.names ∧ l = Files.plainLocation (p.origin here) k

instance (p : Path) (here l : Location) : Decidable (OnWay p here l) :=
  decidable_of_iff (l ∈ p.names.inits.map (Files.plainLocation (p.origin here))) <| by
    simp only [List.mem_map, List.mem_inits, OnWay, eq_comm (a := l)]

/-- Folders are made on the way to a path, from one of its parts on. -/
theorem roads_makeFoldersUpTo (depth : Nat) {q : Path} (hanchor : q.anchor = p.anchor)
    (hnames : q.names <+: p.names) : Keeps (Roads (OnWay p)) (makeFoldersUpTo depth q) := by
  have hq (q : Path) (hanchor : q.anchor = p.anchor) (hnames : q.names <+: p.names)
      (here : Location) : OnWay p here (q.location here) :=
    ⟨q.names, hnames, by rw [Path.location, Path.origin, Path.origin, hanchor]⟩
  induction depth generalizing q with
  | zero => exact roads_makeFolderOr (hq q hanchor hnames) fun e => keeps_throw _
  | succ depth ih =>
    have hparent := ih (q := q.parent) hanchor ((List.dropLast_prefix _).trans hnames)
    have hlast := roads_makeFolderOr (hq q hanchor hnames) fun e => keeps_throw (.file e)
    refine roads_makeFolderOr (hq q hanchor hnames) fun e => ?_
    split
    · exact (keeps_throw _).bind fun _ => hparent.bind fun _ => hlast
    · exact hparent.bind fun _ => hlast

/-- **Making a folder and those on the way to it** adds these folders at most. -/
theorem roads_makeFolders (p : Path) : Keeps (Roads (OnWay p)) (makeFolders p) :=
  roads_makeFoldersUpTo _ rfl List.prefix_rfl

/-- It leaves the files as they are. -/
theorem paves_makeFolders (p : Path) : Keeps Paves (makeFolders p) :=
  (roads_makeFolders p).mono fun _ _ h => h.toPaves

end ApiNodes.Run
