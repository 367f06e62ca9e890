import ApiNodes.Proofs.Run.Steps
import ApiNodes.Run.Generation

namespace ApiNodes.Run

open Files (Path)

/-!
# Why runs fail

`FailsOnly` bounds the reasons for which a computation can fail.  It goes through the steps
of a computation (`FailsOnly.bind`, `FailsOnly.attempt`, `FailsOnly.ensuring`), so that the
failures of a run are those of its operations:

* `failsOnly_change` — an operation on files is refused, or a path holds a null character;
* `failsOnly_writeArtifacts` — a generated file is not written;
* `failsOnly_cleanGenerated` — cleaning passes over what is refused;
* `failsOnly_load`, `failsOnly_recordComponent` — neither the document nor the versions are
  reviewed.
-/

variable {α β : Type} {E F : RunError → Prop} {m : Run α}

/-! ### Steps -/

/-- A computation that fails, if it does, for a reason of a kind. -/
def FailsOnly (E : RunError → Prop) (m : Run α) : Prop :=
  ∀ w e w', m w = (.error e, w') → E e

/-- A weaker bound. -/
theorem FailsOnly.mono (h : FailsOnly E m) (hEF : ∀ e, E e → F e) : FailsOnly F m :=
  fun w e w' hrun => hEF e (h w e w' hrun)

/-- A value is no failure. -/
theorem failsOnly_pure (a : α) : FailsOnly E (pure a) := by
  intro w e w' h
  cases h

/-- A failure of the kind. -/
theorem failsOnly_throw {e : RunError} (he : E e) : FailsOnly E (throw e : Run α) := by
  intro w e' w' h
  cases h
  exact he

/-- One computation after another, which only has to go well with what the first one
    returns. -/
theorem FailsOnly.bind_returned {f : α → Run β} (hm : FailsOnly E m)
    (hf : ∀ w a v, m w = (.ok a, v) → FailsOnly E (f a)) : FailsOnly E (m >>= f) := by
  intro w e w' h
  rcases bind_eq_error_iff.mp h with h | ⟨a, v, hrun, h⟩
  · exact hm w e w' h
  · exact hf w a v hrun v e w' h

/-- One computation after another. -/
theorem FailsOnly.bind {f : α → Run β} (hm : FailsOnly E m) (hf : ∀ a, FailsOnly E (f a)) :
    FailsOnly E (m >>= f) :=
  hm.bind_returned fun _ a _ _ => hf a

/-- Looking at the world. -/
theorem failsOnly_get : FailsOnly E (get : Run World) := by
  intro w e w' h
  cases h

/-- Putting another world in its place. -/
theorem failsOnly_set (v : World) : FailsOnly E (set v : Run PUnit) := by
  intro w e w' h
  cases h

/-- Writing to the log. -/
theorem failsOnly_record (level : Level) (origin : Origin) (message : String) :
    FailsOnly E (record level origin message) := by
  intro w e w' h
  cases h

/-- Both of two computations, one of which is done in any case. -/
theorem FailsOnly.ensuring {after : Run Unit} (hm : FailsOnly E m) (ha : FailsOnly E after) :
    FailsOnly E (Run.ensuring m after) := by
  intro w e w' h
  rcases ensuring_eq_error_imp h with ⟨v, h⟩ | ⟨v, h⟩
  · exact hm w e v h
  · exact ha v e w' h

/-- A computation whose refusals are caught fails for its other reasons. -/
theorem FailsOnly.attempt (hm : FailsOnly (fun e => (∃ refusal, e = .file refusal) ∨ E e) m) :
    FailsOnly E (Run.attempt m) := by
  intro w e w' h
  obtain ⟨h, hother⟩ := attempt_eq_error_imp h
  rcases hm w e w' h with ⟨refusal, rfl⟩ | he
  · exact absurd rfl (hother refusal)
  · exact he

/-! ### Operations on files -/

/-- An operation on files is refused, or a path holds a null character. -/
def IsRefusal (e : RunError) : Prop := (∃ refusal, e = .file refusal) ∨ e = .nullInPath

/-- An answer of the tree. -/
theorem failsOnly_orRefuse (p : Path) (answer : Except Files.Fault α) :
    FailsOnly IsRefusal (orRefuse p answer) := by
  cases answer with
  | ok a => exact failsOnly_pure a
  | error fault => exact failsOnly_throw (.inl ⟨_, rfl⟩)

/-- The check of a path. -/
theorem failsOnly_checkNull (p : Path) : FailsOnly IsRefusal (checkNull p) := by
  unfold checkNull
  split
  · exact failsOnly_throw (.inr rfl)
  · exact failsOnly_pure ()

/-- A question about a path. -/
theorem failsOnly_entryAt? (p : Path) : FailsOnly IsRefusal (entryAt? p) := by
  unfold entryAt?
  split
  · exact failsOnly_pure none
  · refine failsOnly_get.bind fun w => ?_
    split
    · exact failsOnly_pure _
    · exact failsOnly_pure _
    · exact failsOnly_pure _
    · exact failsOnly_throw (.inl ⟨_, rfl⟩)

/-- The question for a file. -/
theorem failsOnly_isFile (p : Path) : FailsOnly IsRefusal (isFile p) := by
  refine (failsOnly_entryAt? p).bind fun e => ?_
  split <;> exact failsOnly_pure _

/-- The question for a folder. -/
theorem failsOnly_isFolder (p : Path) : FailsOnly IsRefusal (isFolder p) := by
  refine (failsOnly_entryAt? p).bind fun e => ?_
  split <;> exact failsOnly_pure _

/-- The question for anything. -/
theorem failsOnly_isThere (p : Path) : FailsOnly IsRefusal (isThere p) :=
  (failsOnly_entryAt? p).bind fun _ => failsOnly_pure _

/-- Reading a file. -/
theorem failsOnly_fileContent (p : Path) : FailsOnly IsRefusal (fileContent p) :=
  (failsOnly_checkNull p).bind fun _ => failsOnly_get.bind fun _ => failsOnly_orRefuse p _

/-- Listing a folder. -/
theorem failsOnly_listFolder (p : Path) : FailsOnly IsRefusal (listFolder p) := by
  refine failsOnly_get.bind fun w => ?_
  split
  · exact (failsOnly_throw (.inl ⟨_, rfl⟩)).bind fun _ =>
      (failsOnly_checkNull p).bind fun _ => failsOnly_orRefuse p _
  · exact (failsOnly_checkNull p).bind fun _ => failsOnly_orRefuse p _

/-- A change of the tree. -/
theorem failsOnly_change (p : Path)
    (f : Files.Tree → Files.Location → Except Files.Fault Files.Tree) :
    FailsOnly IsRefusal (change p f) :=
  (failsOnly_checkNull p).bind fun _ => failsOnly_get.bind fun _ =>
    (failsOnly_orRefuse p _).bind fun _ => failsOnly_set _

/-- Writing a file. -/
theorem failsOnly_putFile (p : Path) (data : ByteArray) : FailsOnly IsRefusal (putFile p data) := by
  refine failsOnly_get.bind fun w => ?_
  split
  · exact (failsOnly_throw (.inl ⟨_, rfl⟩)).bind fun _ => failsOnly_change p _
  · exact failsOnly_change p _

/-- Removing a file. -/
theorem failsOnly_dropFile (p : Path) : FailsOnly IsRefusal (dropFile p) := by
  refine failsOnly_get.bind fun w => ?_
  split
  · exact (failsOnly_throw (.inl ⟨_, rfl⟩)).bind fun _ => failsOnly_change p _
  · exact failsOnly_change p _

/-- Making a folder unless there is one. -/
theorem failsOnly_makeFolderOr (p : Path) {onMissing : Files.FileError → Run Unit}
    (h : ∀ e, FailsOnly IsRefusal (onMissing e)) :
    FailsOnly IsRefusal (makeFolderOr p onMissing) := by
  refine (FailsOnly.attempt ((failsOnly_change p _).mono fun e he => .inr he)).bind fun made => ?_
  split
  · exact failsOnly_pure ()
  · split
    · exact h _
    · refine (failsOnly_isFolder p).bind fun there => ?_
      split
      · exact failsOnly_pure ()
      · exact failsOnly_throw (.inl ⟨_, rfl⟩)

/-- Making a folder and those on the way. -/
theorem failsOnly_makeFolders (p : Path) : FailsOnly IsRefusal (makeFolders p) := by
  have hthrow (e : Files.FileError) : FailsOnly IsRefusal (throw (.file e) : Run Unit) :=
    failsOnly_throw (.inl ⟨e, rfl⟩)
  have key : ∀ (depth : Nat) (p : Path), FailsOnly IsRefusal (makeFoldersUpTo depth p) := by
    intro depth
    induction depth with
    | zero => exact fun p => failsOnly_makeFolderOr p hthrow
    | succ depth ih =>
      intro p
      refine failsOnly_makeFolderOr p fun e => ?_
      split
      · exact (hthrow e).bind fun _ => (ih _).bind fun _ => failsOnly_makeFolderOr p hthrow
      · exact (ih _).bind fun _ => failsOnly_makeFolderOr p hthrow
  exact key _ p

/-! ### Generated files -/

/-- A generated file could not be written. -/
def IsWriteFailure (e : RunError) : Prop :=
  (∃ path cause, e = .notWritten path cause) ∨ e = .nullInPath

/-- Writing a generated file. -/
theorem failsOnly_writeArtifact (p : Path) (content : String) :
    FailsOnly IsWriteFailure (writeArtifact p content) := by
  refine (FailsOnly.attempt (((failsOnly_makeFolders p.parent).bind fun _ =>
    failsOnly_putFile p _).mono fun e he => he.imp_right .inr)).bind fun written => ?_
  split
  · exact failsOnly_pure p
  · exact failsOnly_throw (.inl ⟨_, _, rfl⟩)

/-- Writing generated files. -/
theorem failsOnly_writeArtifacts (folder : Path) (origin : Origin) (announce : String)
    (files : List (String × String)) :
    FailsOnly IsWriteFailure (writeArtifacts folder origin announce files) := by
  induction files with
  | nil => exact failsOnly_pure []
  | cons file files ih =>
    exact (failsOnly_writeArtifact _ _).bind fun _ => (failsOnly_record _ _ _).bind fun _ =>
      ih.bind fun _ => failsOnly_pure _

/-- Cleaning passes over what is refused. -/
theorem failsOnly_cleanGenerated (folder : Path) (ending : String) :
    FailsOnly IsRefusal (cleanGenerated folder ending) := by
  have hcandidates : FailsOnly IsRefusal (candidates folder) := by
    refine (FailsOnly.attempt (FailsOnly.mono ?_ fun e he => Or.inr he)).bind fun listed => ?_
    · refine (failsOnly_isFolder folder).bind fun there => ?_
      split
      · exact (failsOnly_listFolder folder).bind fun _ => failsOnly_pure _
      · exact failsOnly_pure []
    · split
      · exact failsOnly_pure _
      · exact (failsOnly_record _ _ _).bind fun _ => failsOnly_pure _
  have hremove : ∀ paths, FailsOnly IsRefusal (removeEnding ending paths) := by
    intro paths
    induction paths with
    | nil => exact failsOnly_pure []
    | cons p paths ih =>
      unfold removeEnding
      split
      · refine (failsOnly_isFile p).bind fun there => ?_
        split
        · refine (FailsOnly.attempt ((failsOnly_dropFile p).mono fun e he => .inr he)).bind
            fun dropped => ?_
          split
          · exact (failsOnly_record _ _ _).bind fun _ => ih
          · exact (failsOnly_record _ _ _).bind fun _ => ih.bind fun _ => failsOnly_pure _
        · exact ih
      · exact ih
  exact hcandidates.bind fun _ => hremove _

/-! ### Documents and versions -/

/-- A failure that no review made. -/
def IsUnreviewed (e : RunError) : Prop := ∀ faults, e ≠ .rejected faults

/-- Refusals are not made by reviews. -/
theorem IsRefusal.isUnreviewed {e : RunError} (h : IsRefusal e) : IsUnreviewed e := by
  rintro faults rfl
  rcases h with ⟨refusal, h⟩ | h <;> cases h

/-- Nor are failures to write. -/
theorem IsWriteFailure.isUnreviewed {e : RunError} (h : IsWriteFailure e) : IsUnreviewed e := by
  rintro faults rfl
  rcases h with ⟨path, cause, h⟩ | h <;> cases h

/-- The scratch copy of a document is kept, or it is not. -/
theorem failsOnly_keep (document : Value) (source : String) :
    FailsOnly IsUnreviewed (keep document source) := by
  have hscratch (content : String) : FailsOnly IsUnreviewed (keepScratch content) := by
    refine failsOnly_get.bind fun w => ?_
    split
    · exact (failsOnly_throw fun _ h => by cases h).bind fun _ =>
        (failsOnly_set _).bind fun _ => failsOnly_pure _
    · exact (failsOnly_set _).bind fun _ => failsOnly_pure _
  unfold keep
  split
  · exact failsOnly_throw fun _ h => by cases h
  · exact failsOnly_throw fun _ h => by cases h
  · exact (hscratch _).bind fun _ => (failsOnly_record _ _ _).bind fun _ =>
      failsOnly_get.bind fun _ => (failsOnly_record _ _ _).bind fun _ => failsOnly_pure _

/-- Loading a document reviews nothing. -/
theorem failsOnly_load (source : Option String) (timeout : Value) :
    FailsOnly IsUnreviewed (load source timeout) := by
  have hreply (reply : Reply) (e : RunError) (h : replyDocument reply = .error e) :
      IsUnreviewed e := by
    intro faults he
    subst he
    unfold replyDocument at h
    repeat' split at h
    all_goals cases h
  have hdownload (source : Option String) : FailsOnly IsUnreviewed (download source timeout) := by
    refine (failsOnly_record _ _ _).bind fun _ => FailsOnly.bind ?_ fun reply => ?_
    · exact failsOnly_get.bind fun _ => (failsOnly_set _).bind fun _ => failsOnly_pure _
    · split
      · exact failsOnly_keep _ _
      · rename_i e he
        exact failsOnly_throw (hreply reply e he)
  have hfile (p : Path) : FailsOnly IsUnreviewed (loadFile p) := by
    refine (failsOnly_record _ _ _).bind fun _ =>
      ((failsOnly_fileContent p).mono fun e => IsRefusal.isUnreviewed).bind fun data => ?_
    split
    · exact failsOnly_keep _ _
    · exact failsOnly_throw fun _ h => by cases h
  cases source with
  | none => exact hdownload none
  | some s =>
    refine ((failsOnly_isFile _).mono fun e => IsRefusal.isUnreviewed).bind fun there => ?_
    split
    · exact hfile _
    · exact hdownload _

/-- Removing a scratch copy does not fail. -/
theorem failsOnly_dropScratch (number : Nat) : FailsOnly E (dropScratch number) := by
  refine failsOnly_get.bind fun w => ?_
  split
  · exact failsOnly_record _ _ _
  · exact (failsOnly_set _).bind fun _ => failsOnly_record _ _ _

/-- Recording a version reviews nothing. -/
theorem failsOnly_recordComponent (p : Path) (component : String) (source : ApiSource)
    (metadata : Entries) :
    FailsOnly IsUnreviewed (recordComponent p component source metadata) := by
  have hread : FailsOnly IsUnreviewed (readVersions p) := by
    unfold readVersions
    split
    · exact failsOnly_pure none
    · refine (FailsOnly.attempt ((failsOnly_fileContent p).mono fun e he =>
        .inr he.isUnreviewed)).bind fun data => ?_
      split
      · exact failsOnly_pure none
      · split
        · exact failsOnly_pure _
        · exact failsOnly_throw fun _ h => by cases h
  have htick : FailsOnly IsUnreviewed stampNow := by
    refine FailsOnly.bind (failsOnly_get.bind fun w => ?_) fun _ => failsOnly_pure _
    split
    · exact failsOnly_pure _
    · exact failsOnly_pure _
    · exact (failsOnly_set _).bind fun _ => failsOnly_pure _
  have hbefore : FailsOnly IsUnreviewed (versionsOrFresh p source) := by
    refine hread.bind fun found => ?_
    split
    · exact failsOnly_pure _
    · exact htick.bind fun _ => failsOnly_pure _
  -- in order: the line in the log, the document, the clock, the folders, the text, the file
  refine (failsOnly_record _ _ _).bind fun _ => hbefore.bind fun before =>
    htick.bind fun _ => htick.bind fun _ =>
    ((failsOnly_makeFolders _).mono fun e => IsRefusal.isUnreviewed).bind fun _ => ?_
  split
  · exact failsOnly_throw fun _ h => by cases h
  · exact ((failsOnly_putFile _ _).mono fun e => IsRefusal.isUnreviewed).bind fun _ =>
      (failsOnly_record _ _ _).bind fun _ => failsOnly_pure _

end ApiNodes.Run
