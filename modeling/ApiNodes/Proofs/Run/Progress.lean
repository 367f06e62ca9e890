import ApiNodes.Proofs.Files.Open
import ApiNodes.Proofs.Run.Changes

namespace ApiNodes.Run

open Files (Location Path Tree)

/-!
# Writing that succeeds

A run writes a file where the way to it is open.

* `makeFolders_returns`, `makeFolders_returned` — the folders on the way;
* `writeArtifact_returns` — the file.
-/

variable {w w' : World} {p : Path} {l : Location} {content : String}

/-! ### Folders -/

/-- A computation that makes a folder returns where the folder is, or does what it does where one
    on the way is missing. -/
theorem makeFolderOr_returned {onMissing : Files.FileError → Run Unit}
    (h : makeFolderOr p onMissing w = (.ok (), w')) :
    (p.hasNull = false ∧ w'.tree.entry w'.current p = .ok .folder) ∨
      ∃ e, onMissing e w = (.ok (), w') := by
  obtain ⟨made, v, hmade, hnext⟩ := bind_eq_ok_iff.mp h
  clear h
  rcases attempt_eq_ok_imp hmade with ⟨_, rfl, hmake⟩ | ⟨refusal, rfl, hmake⟩
  · -- the folder was made
    cases hnext
    rcases makeFolder_cases hmake with ⟨e, he, -⟩ | ⟨l, -, hnull, hplaces, hat, rfl⟩
    · cases he
    · refine .inl ⟨hnull, Tree.entry_eq_ok_iff.mpr ⟨hplaces.usable, fun k hk hne => ?_, ?_⟩⟩
      · exact (continues_set hplaces hnull (by simp [hat])).folders _ (hplaces.way k hk hne)
      · rw [Tree.at?_set_eq hplaces.ne_nil, if_pos hplaces.location.symm]
  · -- it was not made, so nothing has changed
    have hsame : v = w := by
      rcases makeFolder_cases hmake with ⟨e, -, rfl⟩ | ⟨l, hl, -⟩
      · rfl
      · cases hl
    subst hsame
    replace hnext : (if refusal.fault = .missing then onMissing refusal else do
      if ← isFolder p then return else throw (.file refusal)) v = (.ok (), w') := hnext
    split_ifs at hnext with hmissing
    · exact .inr ⟨refusal, hnext⟩
    · obtain ⟨there, u, hthere, hend⟩ := bind_eq_ok_iff.mp hnext
      cases there with
      | false => cases hend
      | true =>
        obtain ⟨hnull, hentry, rfl⟩ := isFolder_returned hthere
        cases hend
        exact .inl ⟨hnull, hentry⟩

/-- A folder is there after it was made with those on the way, whatever `depth` is. -/
theorem makeFoldersUpTo_returned {depth : Nat} (h : makeFoldersUpTo depth p w = (.ok (), w')) :
    p.hasNull = false ∧ w'.tree.entry w'.current p = .ok .folder := by
  cases depth with
  | zero => exact (makeFolderOr_returned h).resolve_right fun ⟨_, he⟩ => by cases he
  | succ depth =>
    rcases makeFolderOr_returned h with h | ⟨e, h⟩
    · exact h
    · by_cases hempty : p.names.isEmpty = true
      · simp only [hempty, if_true] at h
        cases h
      · simp only [hempty, Bool.false_eq_true, if_false] at h
        obtain ⟨_, v, -, h⟩ := bind_eq_ok_iff.mp h
        exact (makeFolderOr_returned h).resolve_right fun ⟨_, he⟩ => by cases he

/-- **A folder is there** after it was made with those on the way. -/
theorem makeFolders_returned (h : makeFolders p w = (.ok (), w')) :
    p.hasNull = false ∧ w'.tree.entry w'.current p = .ok .folder :=
  makeFoldersUpTo_returned h

/-- Below a folder that is there the way goes on. -/
theorem way_of_parent {t : Tree} {here : Location} (h : t.entry here p.parent = .ok .folder) :
    t.Way (p.origin here) p.names := by
  obtain ⟨-, hway, hfolder⟩ := Tree.entry_eq_ok_iff.mp h
  rcases List.eq_nil_or_concat' p.names with hnames | ⟨init, name, hnames⟩
  · rw [hnames]
    exact t.way_nil _
  · have hparent : p.parent.names = init := by rw [Path.parent, hnames, List.dropLast_concat]
    rw [hparent] at hway
    rw [Path.location, hparent] at hfolder
    rw [hnames]
    exact Tree.way_concat_iff.mpr ⟨hway, hfolder⟩

/-- A way stays open while folders are made. -/
theorem Paves.open_iff (h : Paves w w') {here : Location} {names : List String} :
    w'.tree.Open here names ↔ w.tree.Open here names := by
  unfold Tree.Open
  rw [show w'.tree.file? = w.tree.file? from h.files]

/-- Where a way starts is a folder. -/
theorem World.Sound.origin (hw : w.Sound) (p : Path) :
    w.tree.at? (p.origin w.current) = some .folder := by
  unfold Path.origin
  split
  · exact hw.current
  · rfl

/-- On an open way a folder is made, or it is there, or one before it is missing. -/
theorem makeFolderOr_cases (hw : w.Sound) (hnull : p.hasNull = false)
    (husable : p.Usable w.tree.whole) (hopen : w.tree.Open (p.origin w.current) p.names)
    (onMissing : Files.FileError → Run Unit) :
    (∃ w', makeFolderOr p onMissing w = (.ok (), w')) ∨
      ∃ e, makeFolderOr p onMissing w = onMissing e w ∧ p.names ≠ [] ∧
        ¬w.tree.Way (p.origin w.current) p.names := by
  have hchange : makeFolder p w = match w.tree.makeFolder w.current p with
      | .ok t => (.ok (), { w with tree := t })
      | .error fault => (.error (.file ⟨fault, p.text⟩), w) := by
    unfold makeFolder change checkNull
    rw [hnull]
    show (orRefuse p (w.tree.makeFolder w.current p) >>= fun t => set { w with tree := t }) w = _
    cases w.tree.makeFolder w.current p <;> rfl
  unfold makeFolderOr
  rcases Tree.makeFolder_cases_of_open hw.tree (hw.origin p) husable hopen with
    ⟨hmake, hentry⟩ | ⟨t', hmake⟩ | ⟨hmake, hne, hway⟩ <;> rw [hmake] at hchange
  · -- it is there
    have hattempt : attempt (makeFolder p) w = (.ok (.error ⟨.exists, p.text⟩), w) := by
      rw [attempt, hchange]
    rw [bind_of_ok hattempt]
    refine .inl ⟨w, ?_⟩
    simp only [reduceCtorEq, if_false]
    rw [bind_of_ok (isFolder_eq hnull hentry)]
    rfl
  · -- it is made
    have hattempt : attempt (makeFolder p) w = (.ok (.ok ()), { w with tree := t' }) := by
      rw [attempt, hchange]
    rw [bind_of_ok hattempt]
    exact .inl ⟨_, rfl⟩
  · -- a folder before it is missing
    have hattempt : attempt (makeFolder p) w = (.ok (.error ⟨.missing, p.text⟩), w) := by
      rw [attempt, hchange]
    rw [bind_of_ok hattempt]
    exact .inr ⟨⟨.missing, p.text⟩, by simp, hne, hway⟩

/-- **A folder is made** at the end of an open way, with those on the way. -/
theorem makeFolders_returns (hw : w.Sound) (hnull : p.hasNull = false)
    (husable : p.Usable w.tree.whole) (hopen : w.tree.Open (p.origin w.current) p.names) :
    ∃ w', makeFolders p w = (.ok (), w') := by
  -- by induction on how far the way is: the folder is made once the one before it is there
  have key : ∀ (depth : Nat) (p : Path) (w : World), p.names.length ≤ depth → w.Sound →
      p.hasNull = false → p.Usable w.tree.whole →
      w.tree.Open (p.origin w.current) p.names →
      ∃ w', makeFoldersUpTo depth p w = (.ok (), w') := by
    intro depth
    induction depth with
    | zero =>
      intro p w hlength hw hnull husable hopen
      rcases makeFolderOr_cases hw hnull husable hopen fun e => throw (.file e) with
        h | ⟨e, -, hne, -⟩
      · exact h
      · exact absurd (List.length_eq_zero_iff.mp (Nat.le_zero.mp hlength)) hne
    | succ depth ih =>
      intro p w hlength hw hnull husable hopen
      rcases makeFolderOr_cases hw hnull husable hopen fun e => do
          if p.names.isEmpty then throw (.file e)
          makeFoldersUpTo depth p.parent
          makeFolderOr p fun e => throw (.file e) with h | ⟨e, h, hne, -⟩
      · exact h
      · have hpart : p.parent.names <+: p.names := List.dropLast_prefix _
        have hshorter : p.parent.names.length ≤ depth := by
          have hdrop : p.parent.names.length = p.names.length - 1 := List.length_dropLast
          omega
        obtain ⟨v, hparent⟩ := ih p.parent w hshorter hw (Path.hasNull_part hnull hpart)
          husable.parent (hopen.part hpart)
        have hpaves : Paves w v :=
          (roads_makeFoldersUpTo depth (p := p) (q := p.parent) rfl hpart w _ v hparent).toPaves
        have hopen' : v.tree.Open (p.origin v.current) p.names := by
          rw [hpaves.current]
          exact hpaves.open_iff.mpr hopen
        unfold makeFoldersUpTo
        rw [h]
        simp only [List.isEmpty_iff, hne, if_false]
        rw [bind_of_ok hparent]
        rcases makeFolderOr_cases (hpaves.soundWorld hw) hnull (hpaves.whole ▸ husable) hopen'
          fun e => throw (.file e) with h' | ⟨e', -, -, hway⟩
        · exact h'
        · exact absurd (way_of_parent (makeFoldersUpTo_returned hparent).2) hway
  exact key _ p w le_rfl hw hnull husable hopen

/-! ### Files -/

/-- A path at which a generated file can be written: no file stands on the way to it, and no folder
    stands or comes to stand in its place. -/
structure Room (p : Path) (w : World) : Prop where
  null : p.hasNull = false
  usable : p.Usable w.tree.whole
  last : ∃ name, p.names.getLast? = some name ∧ name ≠ ".."
  open_way : w.tree.Open (p.origin w.current) p.parent.names
  free : w.tree.at? (p.location w.current) ≠ some .folder
  apart : ¬OnWay p.parent w.current (p.location w.current)

/-- On the way to a folder that is there stand folders. -/
theorem folder_of_onWay {t : Tree} {here : Location} (h : t.entry here p = .ok .folder)
    (hl : OnWay p here l) : t.at? l = some .folder := by
  obtain ⟨-, hway, hfolder⟩ := Tree.entry_eq_ok_iff.mp h
  obtain ⟨k, hk, rfl⟩ := hl
  by_cases hne : k = p.names
  · subst hne
    exact hfolder
  · exact hway k hk hne

/-- The folders of a world in which a generated file was written. -/
theorem folder_iff_of_writeArtifact {q : Path} (h : writeArtifact p content w = (.ok q, w')) :
    w'.tree.at? l = some .folder ↔
      w.tree.at? l = some .folder ∨ OnWay p.parent w.current l := by
  obtain ⟨-, v, hmade, hwrite⟩ := writeArtifact_eq_ok_iff.mp h
  have hroads := roads_makeFolders _ _ _ _ hmade
  rcases putFile_cases hwrite with ⟨e, he, -⟩ | ⟨m, -, hnull, hplaces, hfree, rfl⟩
  · cases he
  constructor
  · intro hl
    rw [Tree.at?_set_eq hplaces.ne_nil] at hl
    split_ifs at hl
    · cases hl
    · exact hroads.grounds l hl
  · intro hl
    refine (continues_set hplaces hnull hfree).folders l ?_
    rcases hl with hl | hl
    · exact hroads.folders l hl
    · exact folder_of_onWay (makeFolders_returned hmade).2 (hroads.current ▸ hl)

/-- Where a generated file was written it could be. -/
theorem room_of_returned {q : Path} (h : writeArtifact p content w = (.ok q, w')) :
    Room p w := by
  have hfolders {l : Location} := folder_iff_of_writeArtifact (l := l) h
  obtain ⟨-, v, hmade, hwrite⟩ := writeArtifact_eq_ok_iff.mp h
  have hroads := roads_makeFolders _ _ _ _ hmade
  rcases putFile_cases hwrite with ⟨e, he, -⟩ | ⟨m, -, hnull, hplaces, hfree, rfl⟩
  · cases he
  have hat : (v.tree.set m (.file content.toUTF8)).at? m = some (.file content.toUTF8) := by
    rw [Tree.at?_set_eq hplaces.ne_nil, if_pos rfl]
  have hm : m = p.location w.current := by rw [hplaces.location, hroads.current]
  refine ⟨hnull, hroads.whole ▸ hplaces.usable, hplaces.last, fun k hk => ?_, fun hfolder => ?_,
    fun hway => ?_⟩
  · have hfile := Tree.file?_of_folder (folder_of_onWay (makeFolders_returned hmade).2 ⟨k, hk, rfl⟩)
    rw [hroads.current, show v.tree.file? = w.tree.file? from hroads.files] at hfile
    exact hfile
  · rw [← hm] at hfolder
    rw [hfolders.mpr (.inl hfolder)] at hat
    cases hat
  · rw [← hm] at hway
    rw [hfolders.mpr (.inr hway)] at hat
    cases hat

/-- **A generated file is written** where it can be, unless that is denied. -/
theorem writeArtifact_returns (content : String) (hw : w.Sound)
    (hdenied : p.text ∉ w.denied.write)
    (h : Room p w) : ∃ w', writeArtifact p content w = (.ok p, w') := by
  have hpart : p.parent.names <+: p.names := List.dropLast_prefix _
  obtain ⟨v, hmade⟩ : ∃ v, makeFolders p.parent w = (.ok (), v) :=
    makeFolders_returns hw (Path.hasNull_part h.null hpart) h.usable.parent h.open_way
  have hroads := roads_makeFolders _ _ _ _ hmade
  have hplaces : v.tree.Places v.current p (p.location v.current) :=
    ⟨hroads.whole ▸ h.usable, way_of_parent (makeFolders_returned hmade).2, h.last, rfl⟩
  have hput := putFile_eq content.toUTF8 (hroads.denied ▸ hdenied) h.null hplaces
    fun hfolder => by
      rw [hroads.current] at hfolder
      exact (hroads.grounds _ hfolder).elim h.free h.apart
  exact ⟨_, writeArtifact_eq_ok_iff.mpr ⟨rfl, v, hmade, hput⟩⟩

end ApiNodes.Run
