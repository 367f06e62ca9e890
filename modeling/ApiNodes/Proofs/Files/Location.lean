import ApiNodes.Proofs.Files.Path
import Mathlib.Data.List.Infix

namespace ApiNodes.Files

/-!
# Where paths lead

There are no links in a tree.  A path that can be followed therefore ends at the location that it
means (`Path.location`), and which one that is does not depend on the tree.  It can be followed
exactly when it is not too long and all names of it, but for the last one, lead to folders
(`Tree.Way`).

* `Path.location_join`, `Path.location_child` — what joined paths mean;
* `Tree.entry_eq_ok_iff` — the entry that a path leads to;
* `Tree.target_eq_ok_iff` — the place at which an operation on a path is done (`Tree.Places`).
-/

variable {t : Tree} {here l m : Location} {p q : Path} {names rest : List String} {name : String}
  {fault : Fault} {e : Entry}

/-! ### Locations -/

/-- The location that a path starts from. -/
def Path.origin (here : Location) (p : Path) : Location :=
  match p.anchor with
  | .current => here
  | _ => []

/-- The location that a path means, whatever the tree holds. -/
def Path.location (here : Location) (p : Path) : Location := plainLocation (p.origin here) p.names

/-- One name after others. -/
theorem plainLocation_append (l : Location) (names rest : List String) :
    plainLocation l (names ++ rest) = plainLocation (plainLocation l names) rest :=
  List.foldl_append

/-- Names that do not lead back are added. -/
theorem plainLocation_of_onward (h : ".." ∉ names) : plainLocation l names = l ++ names := by
  induction names generalizing l with
  | nil => exact (List.append_nil l).symm
  | cons name names ih =>
    rw [List.mem_cons, not_or] at h
    have hstep := ih (l := l ++ [name]) h.2
    simpa [plainLocation, Ne.symm h.1] using hstep

/-- The names of a location lead on, but for those that the location started from. -/
theorem not_mem_plainLocation (h : ".." ∉ l) (names : List String) :
    ".." ∉ plainLocation l names := by
  induction names generalizing l with
  | nil => exact h
  | cons name names ih =>
    refine ih (l := if name = ".." then l.dropLast else l ++ [name]) ?_
    split_ifs with hback
    · exact fun hmem => h (List.dropLast_subset l hmem)
    · simpa [h] using Ne.symm hback

/-- A path that goes on from another means what its names lead to from there. -/
theorem Path.location_join (hq : q.anchor = .current) :
    (p.join q).location here = plainLocation (p.location here) q.names := by
  rw [Path.join_of_current hq, Path.location, Path.location, ← plainLocation_append]
  rfl

/-- An entry of a folder stands there under its name. -/
theorem Path.location_child (h : name ≠ "..") :
    (p.child name).location here = p.location here ++ [name] := by
  show plainLocation (p.origin here) (p.names ++ [name]) = _
  rw [plainLocation_append, plainLocation_of_onward (by simpa using Ne.symm h)]
  rfl

/-! ### Ways -/

/-- Folders all along names, before the last of them. -/
def Tree.Way (t : Tree) (l : Location) (names : List String) : Prop :=
  ∀ k, k <+: names → k ≠ names → t.at? (plainLocation l k) = some .folder

/-- There is nothing on the way to where one is. -/
theorem Tree.way_nil (t : Tree) (l : Location) : t.Way l [] :=
  fun _ hk hne => absurd (List.prefix_nil.mp hk) hne

/-- A way begins in a folder. -/
theorem Tree.way_cons_iff :
    t.Way l (name :: names) ↔ t.at? l = some .folder ∧ t.Way (plainLocation l [name]) names := by
  constructor
  · intro h
    refine ⟨h [] (List.nil_prefix) (by simp), fun k hk hne => ?_⟩
    exact h (name :: k) (List.cons_prefix_cons.mpr ⟨rfl, hk⟩) (by simpa using hne)
  · rintro ⟨hfolder, h⟩ k hk hne
    cases k with
    | nil => exact hfolder
    | cons first k =>
      obtain ⟨rfl, hk'⟩ := List.cons_prefix_cons.mp hk
      exact h k hk' (by simpa using hne)

/-- A way ends in a folder that the last name is looked up in. -/
theorem Tree.way_concat_iff :
    t.Way l (names ++ [name]) ↔
      t.Way l names ∧ t.at? (plainLocation l names) = some .folder := by
  constructor
  · intro h
    have hlast := h names (List.prefix_append _ _) (by simp)
    refine ⟨fun k hk _ => h k (hk.trans (List.prefix_append _ _)) fun heq => ?_, hlast⟩
    have hlength := hk.length_le
    rw [heq, List.length_append, List.length_singleton] at hlength
    omega
  · rintro ⟨h, hlast⟩ k hk hne
    rcases List.prefix_concat_iff.mp hk with heq | hk
    · exact absurd heq hne
    · by_cases hkn : k = names
      · rwa [hkn]
      · exact h k hk hkn

/-! ### Following -/

/-- A name that a path can look up. -/
def Fitting (name : String) : Prop := name = ".." ∨ name.utf8ByteSize ≤ nameLimit

/-- A path that is not too long, and that does not lead out of the tree. -/
structure Path.Usable (whole : Bool) (p : Path) : Prop where
  short : p.text.utf8ByteSize < pathLimit
  fitting : ∀ name ∈ p.names, Fitting name
  inside : ∀ root, p.anchor = .outside root → whole = true

/-- A path that starts outside of the tree. -/
def Anchor.isOutside : Anchor → Bool
  | .outside _ => true
  | _ => false

instance (name : String) : Decidable (Fitting name) := inferInstanceAs (Decidable (_ ∨ _))

instance (whole : Bool) (p : Path) : Decidable (p.Usable whole) :=
  decidable_of_iff (p.text.utf8ByteSize < pathLimit ∧ (∀ name ∈ p.names, Fitting name) ∧
      (p.anchor.isOutside = true → whole = true)) <| by
    constructor
    · rintro ⟨hshort, hfitting, hinside⟩
      exact ⟨hshort, hfitting, fun root hroot => hinside (by rw [hroot]; rfl)⟩
    · rintro ⟨hshort, hfitting, hinside⟩
      refine ⟨hshort, hfitting, fun houtside => ?_⟩
      cases hanchor : p.anchor with
      | outside root => exact hinside root hanchor
      | current => simp [hanchor, Anchor.isOutside] at houtside
      | top spelled => simp [hanchor, Anchor.isOutside] at houtside

/-- A usable path could be used in any tree that is whole. -/
theorem Path.Usable.anywhere {whole : Bool} (h : p.Usable whole) : p.Usable true :=
  ⟨h.short, h.fitting, fun _ _ => rfl⟩

/-- A name is looked up in a folder. -/
theorem Tree.next_eq_ok_iff :
    t.next here name = .ok l ↔
      t.at? here = some .folder ∧ Fitting name ∧ l = plainLocation here [name] := by
  unfold Tree.next Fitting plainLocation
  rcases t.at? here with _ | _ | _
  · simp
  · by_cases hback : name = ".."
    · simp [hback, eq_comm]
    · by_cases hlong : nameLimit < name.utf8ByteSize
      · simp [hback, hlong, Nat.not_le.mpr hlong]
      · simp [hback, hlong, Nat.not_lt.mp hlong, eq_comm]
  · simp

/-- A name that is followed, and then others. -/
theorem Tree.follow_cons_eq_ok_iff :
    t.follow here (name :: names) = .ok l ↔
      ∃ m, t.next here name = .ok m ∧ (t.at? m).isSome ∧ t.follow m names = .ok l := by
  rw [Tree.follow]
  cases t.next here name with
  | error fault => simp [bind, Except.bind]
  | ok m =>
    simp only [bind, Except.bind]
    split_ifs with hm <;> simp [hm]

/-- Names are followed along their way, to an entry. -/
theorem Tree.follow_eq_ok_iff :
    t.follow here names = .ok l ↔
      t.Way here names ∧ (∀ name ∈ names, Fitting name) ∧
        (names ≠ [] → (t.at? (plainLocation here names)).isSome) ∧
        l = plainLocation here names := by
  -- behind the first name the way goes on from the place that it leads to
  induction names generalizing here with
  | nil =>
    constructor
    · intro h
      cases h
      exact ⟨t.way_nil _, by simp, by simp, rfl⟩
    · rintro ⟨-, -, -, rfl⟩
      rfl
  | cons name names ih =>
    have hlocation (k : List String) :
        plainLocation here (name :: k) = plainLocation (plainLocation here [name]) k := rfl
    rw [Tree.follow_cons_eq_ok_iff, Tree.way_cons_iff, List.forall_mem_cons, hlocation]
    constructor
    · rintro ⟨m, hnext, hsome, hfollow⟩
      obtain ⟨hfolder, hname, rfl⟩ := Tree.next_eq_ok_iff.mp hnext
      obtain ⟨hway, hnames, hentry, rfl⟩ := ih.mp hfollow
      refine ⟨⟨hfolder, hway⟩, ⟨hname, hnames⟩, fun _ => ?_, rfl⟩
      cases names with
      | nil => exact hsome
      | cons => exact hentry (by simp)
    · rintro ⟨⟨hfolder, hway⟩, ⟨hname, hnames⟩, hentry, rfl⟩
      refine ⟨_, Tree.next_eq_ok_iff.mpr ⟨hfolder, hname, rfl⟩, ?_,
        ih.mpr ⟨hway, hnames, fun _ => hentry (by simp), rfl⟩⟩
      cases names with
      | nil => exact hentry (by simp)
      | cons next names =>
        have hmid := (Tree.way_cons_iff.mp hway).1
        exact Option.isSome_iff_exists.mpr ⟨_, hmid⟩

/-- A path starts in a tree unless it is too long or outside. -/
theorem Tree.start_eq_ok_iff :
    t.start here p = .ok l ↔
      p.text.utf8ByteSize < pathLimit ∧ (∀ root, p.anchor = .outside root → t.whole = true) ∧
        l = p.origin here := by
  unfold Tree.start Path.origin
  by_cases hlong : pathLimit ≤ p.text.utf8ByteSize
  · simp [hlong, Nat.not_lt.mpr hlong]
  · rw [if_neg hlong, eq_comm (a := l)]
    cases p.anchor with
    | current => simp [Nat.not_le.mp hlong]
    | top spelled => simp [Nat.not_le.mp hlong]
    | outside root => cases t.whole <;> simp [Nat.not_le.mp hlong]

/-- A path that is followed starts somewhere, and its names lead on from there. -/
theorem Tree.locate_eq_ok_iff :
    t.locate here p = .ok l ↔
      ∃ start, t.start here p = .ok start ∧ t.follow start p.names = .ok l := by
  unfold Tree.locate
  cases t.start here p <;> simp [bind, Except.bind]

/-- **A path leads to an entry** if it is usable and there are folders on its way. -/
theorem Tree.entry_eq_ok_iff :
    t.entry here p = .ok e ↔
      p.Usable t.whole ∧ t.Way (p.origin here) p.names ∧ t.at? (p.location here) = some e := by
  have hentry : t.entry here p = .ok e ↔ ∃ l, t.locate here p = .ok l ∧ t.at? l = some e := by
    unfold Tree.entry
    cases t.locate here p with
    | error fault => simp [bind, Except.bind]
    | ok l =>
      simp only [bind, Except.bind, Except.ok.injEq, exists_eq_left']
      cases t.at? l <;> simp [pure, Except.pure, throw, throwThe, MonadExceptOf.throw]
  rw [hentry]
  constructor
  · rintro ⟨l, hlocate, hat⟩
    obtain ⟨start, hstart, hfollow⟩ := Tree.locate_eq_ok_iff.mp hlocate
    obtain ⟨hshort, hinside, rfl⟩ := Tree.start_eq_ok_iff.mp hstart
    obtain ⟨hway, hfitting, -, rfl⟩ := Tree.follow_eq_ok_iff.mp hfollow
    exact ⟨⟨hshort, hfitting, hinside⟩, hway, hat⟩
  · rintro ⟨husable, hway, hat⟩
    refine ⟨_, Tree.locate_eq_ok_iff.mpr ⟨_, Tree.start_eq_ok_iff.mpr
      ⟨husable.short, husable.inside, rfl⟩, Tree.follow_eq_ok_iff.mpr
      ⟨hway, husable.fitting, fun _ => ?_, rfl⟩⟩, hat⟩
    rw [Option.isSome_iff_exists]
    exact ⟨e, hat⟩

/-- A folder is listed where a path leads to one. -/
theorem Tree.listFolder_eq_ok_iff :
    t.listFolder here p = .ok names ↔
      t.entry here p = .ok .folder ∧ names = t.namesIn (p.location here) := by
  unfold Tree.listFolder Tree.entry
  cases hlocate : t.locate here p with
  | error fault => simp [bind, Except.bind]
  | ok l =>
    obtain ⟨start, hstart, hfollow⟩ := Tree.locate_eq_ok_iff.mp hlocate
    obtain ⟨-, -, rfl⟩ := Tree.start_eq_ok_iff.mp hstart
    obtain ⟨-, -, -, rfl⟩ := Tree.follow_eq_ok_iff.mp hfollow
    rw [← Path.location]
    simp only [bind, Except.bind]
    rcases t.at? (p.location here) with _ | _ | _ <;>
      simp [pure, Except.pure, throw, throwThe, MonadExceptOf.throw, eq_comm]

/-! ### Refusals -/

/-- Names that fit are refused where something is missing, or no folder. -/
theorem Tree.follow_error_of_fitting (h : ∀ name ∈ names, Fitting name)
    (hfollow : t.follow here names = .error fault) : fault = .missing ∨ fault = .notFolder := by
  induction names generalizing here with
  | nil => cases hfollow
  | cons name names ih =>
    rw [List.forall_mem_cons] at h
    rw [Tree.follow] at hfollow
    rcases hat : t.at? here with _ | _ | _
    · simp only [Tree.next, hat, bind, Except.bind, Except.error.injEq] at hfollow
      exact .inl hfollow.symm
    · rw [Tree.next_eq_ok_iff.mpr ⟨hat, h.1, rfl⟩] at hfollow
      simp only [bind, Except.bind] at hfollow
      split_ifs at hfollow
      · exact ih h.2 hfollow
      · cases hfollow
        exact .inl rfl
    · simp only [Tree.next, hat, bind, Except.bind, Except.error.injEq] at hfollow
      exact .inr hfollow.symm

/-- Names along their way are refused where one does not fit. -/
theorem Tree.Way.fitting_or (h : t.Way here names)
    (hsome : (t.at? (plainLocation here names)).isSome) :
    (∀ name ∈ names, Fitting name) ∨ t.follow here names = .error .nameTooLong := by
  induction names generalizing here with
  | nil => exact .inl (by simp)
  | cons name names ih =>
    obtain ⟨hfolder, hway⟩ := Tree.way_cons_iff.mp h
    by_cases hname : Fitting name
    · have hnext := Tree.next_eq_ok_iff.mpr ⟨hfolder, hname, rfl⟩
      have hmid : (t.at? (plainLocation here [name])).isSome := by
        cases names with
        | nil => exact hsome
        | cons next names =>
          rw [(Tree.way_cons_iff.mp hway).1]
          rfl
      rcases ih hway hsome with hnames | hfollow
      · exact .inl (List.forall_mem_cons.mpr ⟨hname, hnames⟩)
      · right
        rw [Tree.follow, hnext]
        simp only [bind, Except.bind, hmid, if_true]
        exact hfollow
    · -- the first name that does not fit is refused
      right
      unfold Fitting at hname
      rw [not_or, Nat.not_le] at hname
      simp [Tree.follow, Tree.next, hfolder, hname.1, hname.2, bind, Except.bind]

/-- A usable path is not refused for its length. -/
theorem Tree.entry_error_of_usable (h : p.Usable t.whole) (hentry : t.entry here p = .error fault) :
    fault = .missing ∨ fault = .notFolder := by
  have hstart : t.start here p = .ok (p.origin here) :=
    Tree.start_eq_ok_iff.mpr ⟨h.short, h.inside, rfl⟩
  unfold Tree.entry Tree.locate at hentry
  rw [hstart] at hentry
  simp only [bind, Except.bind] at hentry
  cases hfollow : t.follow (p.origin here) p.names with
  | error refusal =>
    rw [hfollow] at hentry
    cases hentry
    exact Tree.follow_error_of_fitting h.fitting hfollow
  | ok l =>
    rw [hfollow] at hentry
    simp only at hentry
    split at hentry
    · cases hentry
    · cases hentry
      exact .inl rfl

/-- **A path along its way** leads to its entry, or it is refused for its length. -/
theorem Tree.entry_cases_of_way (hinside : ∀ root, p.anchor = .outside root → t.whole = true)
    (hway : t.Way (p.origin here) p.names) (hat : t.at? (p.location here) = some e) :
    (p.Usable t.whole ∧ t.entry here p = .ok e) ∨ t.entry here p = .error .nameTooLong := by
  by_cases hshort : p.text.utf8ByteSize < pathLimit
  · have hsome : (t.at? (plainLocation (p.origin here) p.names)).isSome := by
      rw [← Path.location, hat]
      rfl
    rcases hway.fitting_or hsome with hfitting | hfollow
    · have husable : p.Usable t.whole := ⟨hshort, hfitting, hinside⟩
      exact .inl ⟨husable, Tree.entry_eq_ok_iff.mpr ⟨husable, hway, hat⟩⟩
    · right
      have hstart : t.start here p = .ok (p.origin here) :=
        Tree.start_eq_ok_iff.mpr ⟨hshort, hinside, rfl⟩
      simp only [Tree.entry, Tree.locate, hstart, bind, Except.bind, hfollow]
  · right
    simp only [Tree.entry, Tree.locate, Tree.start, Nat.not_lt.mp hshort, if_true, bind,
      Except.bind]

/-! ### Operations -/

/-- The place at which an operation on a path is done: the path is usable, there are folders on its
    way, and its last name does not lead back. -/
structure Tree.Places (t : Tree) (here : Location) (p : Path) (l : Location) : Prop where
  usable : p.Usable t.whole
  way : t.Way (p.origin here) p.names
  last : ∃ name, p.names.getLast? = some name ∧ name ≠ ".."
  location : l = p.location here

/-- The target of a path is where its last name leads from the folder before it. -/
theorem Tree.target_eq_ok_iff_follow :
    t.target here p fault = .ok l ↔
      ∃ start folder name, t.start here p = .ok start ∧ p.names.getLast? = some name ∧
        t.follow start p.names.dropLast = .ok folder ∧ t.next folder name = .ok l ∧
          name ≠ ".." := by
  unfold Tree.target
  cases t.start here p with
  | error fault => simp [bind, Except.bind]
  | ok start =>
    cases p.names.getLast? with
    | none => simp [bind, Except.bind, throw, throwThe, MonadExceptOf.throw]
    | some name =>
      cases hfollow : t.follow start p.names.dropLast with
      | error fault => simp [bind, Except.bind, hfollow]
      | ok folder =>
        cases hnext : t.next folder name with
        | error fault => simp [bind, Except.bind, hfollow, hnext]
        | ok m =>
          simp only [bind, Except.bind, hfollow, hnext]
          split_ifs with hback
          · simp [hback]
          · simp [pure, Except.pure, hfollow, hnext, hback]

/-- **The target of an operation** is its place. -/
theorem Tree.target_eq_ok_iff : t.target here p fault = .ok l ↔ t.Places here p l := by
  rw [Tree.target_eq_ok_iff_follow]
  constructor
  · rintro ⟨start, folder, name, hstart, hlast, hfollow, hnext, hback⟩
    have hnames := (List.dropLast_append_getLast? name hlast).symm
    obtain ⟨hshort, hinside, rfl⟩ := Tree.start_eq_ok_iff.mp hstart
    obtain ⟨hway, hfitting, -, rfl⟩ := Tree.follow_eq_ok_iff.mp hfollow
    obtain ⟨hfolder, hname, rfl⟩ := Tree.next_eq_ok_iff.mp hnext
    refine ⟨⟨hshort, ?_, hinside⟩, ?_, ⟨name, hlast, hback⟩, ?_⟩
    · rw [hnames, List.forall_mem_append]
      exact ⟨hfitting, by simpa using hname⟩
    · rw [hnames]
      exact Tree.way_concat_iff.mpr ⟨hway, hfolder⟩
    · rw [← plainLocation_append, ← hnames]
      rfl
  · rintro ⟨husable, hway, ⟨name, hlast, hback⟩, rfl⟩
    have hnames := (List.dropLast_append_getLast? name hlast).symm
    have hfitting := husable.fitting
    rw [hnames] at hway
    rw [hnames, List.forall_mem_append] at hfitting
    obtain ⟨hway, hfolder⟩ := Tree.way_concat_iff.mp hway
    refine ⟨_, _, name, Tree.start_eq_ok_iff.mpr ⟨husable.short, husable.inside, rfl⟩, hlast,
      Tree.follow_eq_ok_iff.mpr ⟨hway, hfitting.1, fun _ => by rw [hfolder]; rfl, rfl⟩,
      Tree.next_eq_ok_iff.mpr ⟨hfolder, hfitting.2 name (by simp), ?_⟩, hback⟩
    rw [← plainLocation_append, ← hnames]
    rfl


/-- It is that of an entry of a folder. -/
theorem Tree.Places.entry (h : t.Places here p l) :
    ∃ folder name, l = folder ++ [name] ∧ t.at? folder = some .folder ∧
      p.names.getLast? = some name ∧ name ≠ ".." := by
  obtain ⟨-, hway, ⟨name, hlast, hback⟩, rfl⟩ := h
  have hnames := (List.dropLast_append_getLast? name hlast).symm
  rw [hnames] at hway
  refine ⟨_, name, ?_, (Tree.way_concat_iff.mp hway).2, hlast, hback⟩
  rw [Path.location]
  conv_lhs => rw [hnames, plainLocation_append]
  exact plainLocation_of_onward (by simpa using Ne.symm hback)

/-- It is not the top. -/
theorem Tree.Places.ne_nil (h : t.Places here p l) : l ≠ [] := by
  obtain ⟨folder, name, rfl, -⟩ := h.entry
  simp

end ApiNodes.Files
