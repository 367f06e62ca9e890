import ApiNodes.Proofs.Run.Returns
import ApiNodes.Proofs.Run.Updates

namespace ApiNodes.Run

open Files (Location Path Tree)

/-!
# Histories that are recorded

Updates of a version document are made on a file that can be written.  Each of them reads what is
there, a document or none, and what it returns is read from the file afterwards: so the documents of
a history are those that its calls make one of the other, whatever was in the file before.

* `timed` — the stamps of the calls, by the clock;
* `Recordable.update` — one update;
* `recordAll_tells` — a whole history.
-/

variable {α : Type} {w w' : World} {p : Path} {before : Option Entries} {d : Entries} {u : Update}
  {updates : List Update}

/-! ### The clock -/

/-- The moment that a clock shows. -/
def shown (clock : List Int) : Int := clock.headD 0

/-- A clock that was read once more; its last moment stays. -/
def passed : List Int → List Int
  | _ :: now :: later => now :: later
  | clock => clock

/-- A world at another time. -/
def World.at (w : World) (clock : List Int) : World := { w with clock }

/-- The stamp of the moment. -/
theorem stampNow_eq (w : World) :
    stampNow w = (.ok (stamp (shown w.clock)), w.at (passed w.clock)) := by
  have htick : tick w = (.ok (shown w.clock), w.at (passed w.clock)) := by
    unfold tick World.at
    rw [get_bind]
    rcases hclock : w.clock with _ | ⟨now, _ | ⟨later, rest⟩⟩
    · rw [show w = { w with clock := [] } by rw [← hclock]]
      rfl
    · rw [show w = { w with clock := [now] } by rw [← hclock]]
      rfl
    · rfl
  unfold stampNow
  rw [bind_of_ok htick]
  rfl

/-- Nothing is done to the tree as time passes. -/
theorem still_at (w : World) (clock : List Int) : Still w (w.at clock) :=
  ⟨rfl, rfl, rfl, rfl, rfl⟩

/-- A world with the same time. -/
def SameTime (w w' : World) : Prop := w'.clock = w.clock

instance : IsPreorder World SameTime where
  refl _ := rfl
  trans _ _ _ h h' := Eq.trans h' h

/-- No time passes while folders are made. -/
theorem sameTime_makeFolders (p : Path) : Keeps SameTime (makeFolders p) := by
  have hmake (p : Path) : Keeps SameTime (makeFolder p) := by
    intro w r w' h
    rcases makeFolder_cases h with ⟨e, -, rfl⟩ | ⟨l, -, -, -, -, rfl⟩ <;> rfl
  have hfolder (p : Path) : Keeps SameTime (isFolder p) := by
    have hentry : Keeps SameTime (entryAt? p) := fun w r w' h => by
      obtain ⟨rfl, -⟩ := entryAt?_cases h
      rfl
    refine hentry.bind fun e => ?_
    split <;> exact keeps_pure _
  have hor (p : Path) {onMissing : Files.FileError → Run Unit}
      (h : ∀ e, Keeps SameTime (onMissing e)) : Keeps SameTime (makeFolderOr p onMissing) := by
    refine (hmake p).attempt.bind fun made => ?_
    split
    · exact keeps_pure ()
    · split
      · exact h _
      · refine (hfolder p).bind fun there => ?_
        split
        · exact keeps_pure ()
        · exact keeps_throw _
  -- a folder is made after those above it, so the induction is on their number
  have key : ∀ (depth : Nat) (p : Path), Keeps SameTime (makeFoldersUpTo depth p) := by
    intro depth
    induction depth with
    | zero => exact fun p => hor p fun e => keeps_throw _
    | succ depth ih =>
      intro p
      refine hor p fun e => ?_
      split
      · exact (keeps_throw _).bind fun _ => (ih _).bind fun _ => hor p fun e => keeps_throw _
      · exact (ih _).bind fun _ => hor p fun e => keeps_throw _
  exact key _ p

/-- The call that an update makes by the clock; a document that is begun takes a stamp of its
    own. -/
def Update.call (u : Update) (fresh : Bool) (clock : List Int) : Call :=
  let changed := if fresh then passed clock else clock
  { u with
    begun := stamp (shown clock)
    updated := stamp (shown changed)
    generated := stamp (shown (passed changed)) }

/-- The clock after an update. -/
def clockAfter (fresh : Bool) (clock : List Int) : List Int :=
  passed (passed (if fresh then passed clock else clock))

/-- The calls that updates make by the clock, where a document is begun or there is one. -/
def timed (fresh : Bool) (clock : List Int) : List Update → List Call
  | [] => []
  | u :: updates => u.call fresh clock :: timed false (clockAfter fresh clock) updates

/-- The calls are those updates. -/
theorem toUpdate_timed (fresh : Bool) (clock : List Int) (updates : List Update) :
    (timed fresh clock updates).map Call.toUpdate = updates := by
  induction updates generalizing fresh clock with
  | nil => rfl
  | cons u updates ih => rw [timed, List.map_cons, ih]; rfl

/-! ### Reading -/

/-- The document that is found at a path: none where there is no file, and none in a file that holds
    no mapping. -/
def recordedAt (p : Path) (w : World) : Except LoadError (Option Entries) :=
  match w.tree.fileContent w.current p with
  | .ok data => versionsOf data
  | .error _ => .ok none

/-- What is found is read. -/
theorem readVersions_eq (hnull : p.hasNull = false) (h : recordedAt p w = .ok before) :
    readVersions p w = (.ok before, w) := by
  have hcontent : fileContent p w = orRefuse p (w.tree.fileContent w.current p) w := by
    unfold fileContent checkNull
    rw [hnull]
    rfl
  unfold recordedAt at h
  unfold readVersions
  rw [hnull]
  simp only [Bool.false_eq_true, if_false]
  cases hfile : w.tree.fileContent w.current p with
  | error fault =>
    rw [hfile] at h hcontent
    cases h
    have hattempt : attempt (fileContent p) w = (.ok (.error ⟨fault, p.text⟩), w) := by
      rw [attempt, hcontent]
      rfl
    rw [bind_of_ok hattempt]
    rfl
  | ok data =>
    rw [hfile] at h hcontent
    have hattempt : attempt (fileContent p) w = (.ok (.ok data), w) := by
      rw [attempt, hcontent]
      rfl
    rw [bind_of_ok hattempt]
    simp only [h]
    rfl

/-- A document that is begun takes the stamp of the moment. -/
theorem versionsOrFresh_eq (hnull : p.hasNull = false) (h : recordedAt p w = .ok before)
    (source : ApiSource) :
    versionsOrFresh p source w =
      (.ok (before.getD (freshVersions source (stamp (shown w.clock)))),
        w.at (if before.isNone then passed w.clock else w.clock)) := by
  unfold versionsOrFresh
  rw [bind_of_ok (readVersions_eq hnull h)]
  cases before with
  | some es => rfl
  | none =>
    simp only
    rw [bind_of_ok (stampNow_eq w)]
    rfl

/-! ### Writing -/

/-- **A file with the text of a document holds the document.** -/
theorem versionsOf_toUTF8 {text : String} (htext : versionsText d = .ok text)
    (hread : Json.read text = .ok (.map d)) : versionsOf text.toUTF8 = .ok (some d) := by
  unfold versionsText Json.document at htext
  cases hwrite : Json.write .refuse 0 (.map d) with
  | error e =>
    rw [hwrite] at htext
    cases htext
  | ok body =>
    rw [hwrite] at htext
    cases htext
    have hlines : Name.All Json.InLines (body ++ "\n").toList := by
      rw [String.toList_append]
      exact (Json.all_write _ hwrite).append (by decide)
    rw [versionsOf, Json.fileText?_toUTF8 hlines, Option.map_some, hread]
    rfl

/-- A path at which a version document can be written, with what is found there. -/
structure Recordable (p : Path) (w : World) (before : Option Entries) : Prop where
  sound : w.Sound
  allowed : p.text ∉ w.denied.write
  room : Room p w
  found : recordedAt p w = .ok before

/-- What was written to a file is found there. -/
theorem recordedAt_written {text : String} (hreaches : Reaches p w)
    (hfile : w.files (p.location w.current) = some text.toUTF8)
    (htext : versionsText d = .ok text) (hread : Json.read text = .ok (.map d)) :
    recordedAt p w = .ok (some d) := by
  have hentry : w.tree.entry w.current p = .ok (.file text.toUTF8) :=
    Tree.entry_eq_ok_iff.mpr ⟨hreaches.usable, hreaches.way, Tree.file?_eq_some_iff.mp hfile⟩
  have hcontent : w.tree.fileContent w.current p = .ok text.toUTF8 := by
    rw [Tree.fileContent, hentry]
    rfl
  rw [recordedAt, hcontent]
  exact versionsOf_toUTF8 htext hread

/-- What an update does with the document that it makes: it is written and returned. -/
def storeVersions (p : Path) (u : Update) (d : Entries) : Run Entries := do
  makeFolders p.parent
  match versionsText d with
  | .error fault => throw (.unwritable fault)
  | .ok content =>
    writeText p content
    inform .versions ("Updated version info: " ++ u.component ++ " generated from API " ++
      u.source.version)
    return d

/-- **The document that an update makes** is that of its call, of the document that is found. -/
theorem recordComponent_eq (hnull : p.hasNull = false) (hfound : recordedAt p w = .ok before)
    (u : Update) : recordComponent p u.component u.source u.metadata w =
      storeVersions p u ((u.call before.isNone w.clock).document before)
        ((w.noting .info .versions ("Updating version info for " ++ u.component ++ "...")).at
          (clockAfter before.isNone w.clock)) := by
  -- the clock is read for a document that is begun, for the change and for the component
  let w₀ := w.noting .info .versions ("Updating version info for " ++ u.component ++ "...")
  let changed := if before.isNone then passed w.clock else w.clock
  have hfresh : versionsOrFresh p u.source w₀ =
      (.ok (before.getD (freshVersions u.source (stamp (shown w.clock)))), w₀.at changed) :=
    versionsOrFresh_eq (w := w₀) hnull hfound u.source
  have hupdated : stampNow (w₀.at changed) =
      (.ok (stamp (shown changed)), w₀.at (passed changed)) := stampNow_eq _
  have hgenerated : stampNow (w₀.at (passed changed)) =
      (.ok (stamp (shown (passed changed))), w₀.at (passed (passed changed))) := stampNow_eq _
  unfold recordComponent
  rw [bind_of_ok (inform_eq _ _), bind_of_ok hfresh, bind_of_ok hupdated, bind_of_ok hgenerated]
  rfl

/-- **A document is stored** where it can be written, and is found there. -/
theorem storeVersions_returns (hw : w.Sound) (hallowed : p.text ∉ w.denied.write) (hroom : Room p w)
    (u : Update) (hback : ReadsBack d) :
    ∃ w', storeVersions p u d w = (.ok d, w') ∧ w'.clock = w.clock ∧
      Recordable p w' (some d) := by
  obtain ⟨text, htext, hread⟩ := hback
  -- folders are made, which changes no files, and then the text is put into its file
  obtain ⟨v, hrun⟩ := writeArtifact_returns text hw hallowed hroom
  obtain ⟨-, u', hmade, hwrite⟩ := writeArtifact_eq_ok_iff.mp hrun
  have hpaves := paves_makeFolders _ _ _ _ hmade
  have hclock : v.clock = w.clock := by
    have hu : u'.clock = w.clock := sameTime_makeFolders _ _ _ _ hmade
    rcases putFile_cases hwrite with ⟨e, he, -⟩ | ⟨l, -, -, -, -, rfl⟩
    · cases he
    · exact hu
  rcases writeText_cases hwrite with ⟨e, he, -⟩ | ⟨-, hreaches, hcontinues, hfiles⟩
  · cases he
  have hgoes := hpaves.toContinues.trans hcontinues
  have hfound : recordedAt p v = .ok (some d) := by
    refine recordedAt_written hreaches ?_ htext hread
    rw [hfiles, hcontinues.current, Function.update_self]
  -- nothing but the log is different after that
  let w' := v.noting .info .versions ("Updated version info: " ++ u.component ++
    " generated from API " ++ u.source.version)
  have hstill : Still v w' := still_noting v _ _ _
  refine ⟨w', ?_, hclock, ?_, ?_, ?_, hfound⟩
  · unfold storeVersions
    rw [bind_of_ok hmade]
    simp only [htext]
    rw [bind_of_ok hwrite, bind_of_ok (inform_eq _ _)]
    rfl
  · exact hstill.paves.toContinues.soundWorld (hgoes.soundWorld hw)
  · rw [hstill.denied, hgoes.denied]
    exact hallowed
  · exact (hroom.write hroom.apart hroom.apart hrun).of_tree hstill.tree hstill.current

/-- **One update** returns the document that its call makes of the one that is found, and that is
    what is found then. -/
theorem Recordable.update (h : Recordable p w before) (u : Update)
    (hback : ReadsBack ((u.call before.isNone w.clock).document before)) :
    ∃ w', recordComponent p u.component u.source u.metadata w =
        (.ok ((u.call before.isNone w.clock).document before), w') ∧
      w'.clock = clockAfter before.isNone w.clock ∧
      Recordable p w' (some ((u.call before.isNone w.clock).document before)) := by
  have hstill := (still_noting w .info .versions
    ("Updating version info for " ++ u.component ++ "...")).trans
      (still_at _ (clockAfter before.isNone w.clock))
  obtain ⟨w', hrun, hclock, hw'⟩ := storeVersions_returns
    (hstill.paves.toContinues.soundWorld h.sound) (by rw [hstill.denied]; exact h.allowed)
    (h.room.of_tree hstill.tree hstill.current) u hback
  exact ⟨w', (recordComponent_eq h.room.null h.found u).trans hrun, hclock, hw'⟩

/-! ### Histories -/

/-- Make updates one after the other, and read the document after each of them. -/
def recordAll (p : Path) : List Update → Run (List (Entries × Option Entries))
  | [] => return []
  | u :: updates => do
    let returned ← recordComponent p u.component u.source u.metadata
    let found ← readVersions p
    let others ← recordAll p updates
    return (returned, found) :: others

/-- **Updates return** the documents of their calls, each of which is read after its call. -/
theorem Recordable.history (h : Recordable p w before)
    (hback : ∀ d ∈ documents before (timed before.isNone w.clock updates), ReadsBack d) :
    ∃ w', recordAll p updates w = (.ok ((documents before
      (timed before.isNone w.clock updates)).map fun d => (d, some d)), w') := by
  -- the document that an update leaves is the one that is found by the next
  induction updates generalizing w before with
  | nil => exact ⟨w, rfl⟩
  | cons u updates ih =>
    rw [timed, documents, List.forall_mem_cons] at hback
    obtain ⟨v, hrun, hclock, hv⟩ := h.update u hback.1
    have hread := readVersions_eq hv.room.null hv.found
    have hrest := ih hv
    rw [hclock] at hrest
    obtain ⟨w', hothers⟩ := hrest hback.2
    refine ⟨w', ?_⟩
    rw [recordAll, bind_of_ok hrun, bind_of_ok hread, bind_of_ok hothers]
    rfl

/-- **Version documents over whole histories.**  On a path that can be written, whatever is found
    there at first, updates return the documents of their calls; each is what is read after its call,
    and tells what the calls up to it made of the document that was found.  Calls for different
    components leave the same components in any order. -/
theorem recordAll_tells (updates : List Update) (h : Recordable p w before)
    (hback : ∀ d ∈ documents before (timed before.isNone w.clock updates), ReadsBack d) :
    ∃ calls w', calls = timed before.isNone w.clock updates ∧ calls.map Call.toUpdate = updates ∧
      recordAll p updates w = (.ok ((documents before calls).map fun d => (d, some d)), w') ∧
      (∀ n d, (documents before calls)[n]? = some d →
        Tells (before.getD []) (calls.take (n + 1)) d) ∧
      ∀ others d d', (others.map Call.entry).Perm (calls.map Call.entry) →
        (calls.map (·.component)).Nodup → d ∈ (documents before calls).getLast? →
        d' ∈ (documents before others).getLast? → ∀ component,
          Value.atKey? component (componentsOf d') = Value.atKey? component (componentsOf d) := by
  obtain ⟨w', hrun⟩ := h.history hback
  refine ⟨_, w', rfl, toUpdate_timed _ _ updates, hrun, fun n d hd => tells_documents hd,
    fun others d d' hperm hnodup hd hd' => ?_⟩
  exact (tells_getLast? hd).components_eq (tells_getLast? hd') hperm hnodup

/-- A document with components that are no mapping. -/
def staleEntries : Entries :=
  [(.str "owner", .str "us"), (.str "components", .null), (.str "lastUpdated", .str "never")]

/-- Its text. -/
def staleText : String :=
  "\x7b\n  \x22owner\x22: \x22us\x22,\n  \x22components\x22: null,\n" ++
    "  \x22lastUpdated\x22: \x22never\x22\n\x7d\n"

/-- The path that it is found at. -/
def stalePath : Path := .ofString "api-version.json"

/-- A world with the document. -/
def staleWorld : World where
  tree := { entries := [(["api-version.json"], .file staleText.toUTF8)] }
  clock := [0, 1000000, 2000000, 3000000]

/-- Updates of two components. -/
def staleUpdates : List Update :=
  [⟨"Node", ⟨"https://api", "1"⟩, [(.str "resourceCount", .int 3), (.str "generatedAt", .null)]⟩,
    ⟨"Trigger", ⟨"https://api", "2"⟩, []⟩]

theorem faithful_staleEntries : Json.Faithful Json.nestingLimit (.map staleEntries) :=
  ((Json.faithful_nil.putKey (.str "us") "owner").putKey .null "components").putKey
    (.str "never") "lastUpdated"

theorem readsBack_staleUpdates :
    ∀ d ∈ documents (some staleEntries) (timed false staleWorld.clock staleUpdates),
      ReadsBack d := by
  refine readsBack_documents ?_ fun c hc => ?_
  · rintro es ⟨⟩
    exact faithful_staleEntries
  · have hupdate : c.toUpdate ∈ staleUpdates :=
      toUpdate_timed false staleWorld.clock staleUpdates ▸ List.mem_map_of_mem hc
    rcases List.mem_pair.mp hupdate with heq | heq <;> rw [heq]
    · exact (Json.faithful_nil.putKey (.int (by decide +kernel)) "resourceCount").putKey .null
        "generatedAt"
    · exact Json.faithful_nil

theorem recordable_staleWorld : Recordable stalePath staleWorld (some staleEntries) := by
  have hlocation : stalePath.location staleWorld.current = ["api-version.json"] := by decide +kernel
  have husable : stalePath.Usable staleWorld.tree.whole := by decide +kernel
  have hnames : stalePath.names = ["api-version.json"] := by decide +kernel
  have hway : staleWorld.tree.Way (stalePath.origin staleWorld.current) stalePath.names := by
    rw [hnames]
    have htop : staleWorld.tree.at? (stalePath.origin staleWorld.current) = some .folder := rfl
    exact Tree.way_cons_iff.mpr ⟨htop, Tree.way_nil _ _⟩
  have htext : versionsText staleEntries = .ok staleText := by decide +kernel
  refine ⟨⟨Tree.sound_of_entries fun entry hentry => ?_, rfl⟩, by decide, ?_, ?_⟩
  · rw [List.mem_singleton.mp hentry]
    exact ⟨rfl, by decide⟩
  · refine ⟨by decide +kernel, husable, ⟨"api-version.json", by rw [hnames]; rfl, by decide⟩, ?_, ?_,
      by decide +kernel⟩
    · intro k hk
      have hparent : stalePath.parent.names = [] := by decide +kernel
      rw [hparent] at hk
      rw [List.prefix_nil.mp hk]
      rfl
    · rw [hlocation]
      exact fun h => by cases h
  · obtain ⟨text, hwritten, hread⟩ := readsBack_of_faithful faithful_staleEntries
    obtain rfl : staleText = text := Except.ok.inj (htext.symm.trans hwritten)
    refine recordedAt_written ⟨by decide +kernel, husable, hway⟩ ?_ htext hread
    rw [hlocation]
    rfl

theorem recordAll_tells_staleWorld :
    Recordable stalePath staleWorld (some staleEntries) ∧
      ∃ w', recordAll stalePath staleUpdates staleWorld = (.ok ((documents (some staleEntries)
        (timed false staleWorld.clock staleUpdates)).map fun d => (d, some d)), w') := by
  obtain ⟨_, w', rfl, -, hrun, -⟩ :=
    recordAll_tells staleUpdates recordable_staleWorld readsBack_staleUpdates
  exact ⟨recordable_staleWorld, w', hrun⟩

/-- The stamp of the document is not kept, though it is neither the source nor the components. -/
theorem restamped_staleWorld :
    ¬∀ results w', recordAll stalePath staleUpdates staleWorld = (.ok results, w') →
      ∀ r ∈ results.getLast?, ∀ key ∉ ["apiSource", "components"],
        Value.atKey? key r.1 = Value.atKey? key staleEntries := by
  intro h
  obtain ⟨w', hrun⟩ := recordable_staleWorld.history readsBack_staleUpdates
  obtain ⟨d, hlast⟩ : ∃ d, (documents (some staleEntries)
      (timed false staleWorld.clock staleUpdates)).getLast? = some d := ⟨_, rfl⟩
  have hkept := h _ w' hrun (d, some d) (by
    rw [List.getLast?_map]
    exact congrArg (Option.map _) hlast) "lastUpdated" (by decide)
  have hbefore : Value.atKey? "lastUpdated" staleEntries = some (.str "never") := rfl
  rw [((tells_getLast? hlast).last _ rfl).2, hbefore] at hkept
  have hstamp : stamp 2000000 = "never" := Value.str.inj (Option.some.inj hkept)
  exact absurd hstamp (by decide +kernel)

end ApiNodes.Run
