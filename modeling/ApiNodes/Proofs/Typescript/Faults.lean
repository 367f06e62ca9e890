import ApiNodes.Proofs.Ordered
import ApiNodes.Proofs.Text.Pieces
import ApiNodes.Typescript.Review

namespace ApiNodes.Typescript

/-!
# The files at fault

What a review finds, without the search for it.  A placeholder stands on one line between the
delimiters of a kind; that of a file is the one that begins first, up to the first closing delimiter.

* `Unfilled`, `Unbalanced` — the files at fault;
* `FirstPlaceholder` — the placeholder that is told of;
* `placeholderFrom?_eq_some`, `placeholderFrom?_eq_none`, `isSome_placeholderFrom?_iff` — the search
  finds it, and finds one in every unfilled text;
* `review_eq`, `map_fst_review` — the table that a review makes;
* `review_reports` — what it tells.
-/

variable {a b : Char} {s text found : List Char} {line n : Nat}

/-! ### Placeholders -/

/-- The opening and the closing delimiter of the two kinds of placeholders. -/
def delimiters : List (List Char × List Char) := [(['{', '{'], ['}', '}']), (['{', '%'], ['%', '}'])]

/-- A line holds a placeholder: an opening delimiter, and the closing one somewhere behind it. -/
def HoldsPlaceholder (line : List Char) : Prop :=
  ∃ d ∈ delimiters, ∃ before body after, line = before ++ d.1 ++ body ++ d.2 ++ after

/-- A line of a text holds a placeholder. -/
def Unfilled (text : List Char) : Prop := ∃ line ∈ Text.cut '\n' text, HoldsPlaceholder line

/-- A text begins with a placeholder that goes up to the first closing delimiter of its kind, and
    that does not leave its line. -/
def Leads (found text : List Char) : Prop :=
  ∃ d ∈ delimiters, ∃ body after, found = d.1 ++ body ++ d.2 ∧ text = found ++ after ∧ '\n' ∉ body ∧
    ∀ body' after', body ++ d.2 ++ after = body' ++ d.2 ++ after' → body.length ≤ body'.length

/-- The placeholder that begins first in a text, and its line. -/
def FirstPlaceholder (text found : List Char) (line : Nat) : Prop :=
  ∃ before rest, text = before ++ rest ∧ Leads found rest ∧ line = 1 + before.count '\n' ∧
    ∀ before' rest' found', text = before' ++ rest' → Leads found' rest' →
      before.length ≤ before'.length

/-! ### The search -/

/-- What is closed goes up to the first closing delimiter on the line. -/
theorem closedBy_eq_some (h : closedBy a b s = some found) :
    ∃ body after, found = body ++ [a, b] ∧ s = found ++ after ∧ ('\n' ∈ body → a = '\n') ∧
      ∀ body' after', s = body' ++ [a, b] ++ after' → body.length ≤ body'.length := by
  fun_induction closedBy a b s generalizing found with
  | case1 c d r hend =>
    -- the delimiter stands here
    cases h
    obtain ⟨rfl, rfl⟩ := hend
    exact ⟨[], r, rfl, rfl, by simp, by simp⟩
  | case2 d r hend => cases h
  | case3 c d r hend hline ih =>
    -- the search goes on behind the first character
    obtain ⟨found, hfound, rfl⟩ := Option.map_eq_some_iff.mp h
    obtain ⟨body, after, rfl, htext, hbody, hfirst⟩ := ih hfound
    refine ⟨c :: body, after, rfl, congrArg (c :: ·) htext, ?_, ?_⟩
    · intro hmem
      exact hbody ((List.mem_cons.mp hmem).resolve_left (Ne.symm hline))
    · intro body' after' hother
      cases body' with
      | nil =>
        -- the delimiter does not stand at the head
        simp only [List.nil_append, List.cons_append, List.cons.injEq] at hother
        exact absurd ⟨hother.1, hother.2.1⟩ hend
      | cons e body' =>
        rw [List.cons_append, List.cons_append, List.cons.injEq] at hother
        exact Nat.succ_le_succ (hfirst body' after' hother.2)
  | case4 s hshort => cases h

/-- What is not closed leaves its line before any closing delimiter. -/
theorem closedBy_eq_none (h : closedBy a b s = none) {body after : List Char}
    (hs : s = body ++ [a, b] ++ after) : '\n' ∈ body := by
  fun_induction closedBy a b s generalizing body with
  | case1 c d r hend => cases h
  | case2 d r hend =>
    -- the line ends
    cases body with
    | nil =>
      simp only [List.nil_append, List.cons_append, List.cons.injEq] at hs
      exact absurd ⟨hs.1, hs.2.1⟩ hend
    | cons e body =>
      obtain ⟨rfl, -⟩ := List.cons.inj hs
      exact List.mem_cons_self
  | case3 c d r hend hline ih =>
    -- the search goes on behind the first character
    cases body with
    | nil =>
      simp only [List.nil_append, List.cons_append, List.cons.injEq] at hs
      exact absurd ⟨hs.1, hs.2.1⟩ hend
    | cons e body =>
      exact List.mem_cons_of_mem e (ih (Option.map_eq_none_iff.mp h) (List.cons.inj hs).2)
  | case4 s hshort =>
    -- the text is too short for a delimiter
    cases body with
    | nil => exact absurd hs (hshort a b after)
    | cons e body =>
      cases body with
      | nil => exact absurd hs (hshort e a (b :: after))
      | cons d body => exact absurd hs (hshort e d (body ++ [a, b] ++ after))

/-- A placeholder that is found at the head of a text leads it. -/
theorem placeholderAt?_eq_some (h : placeholderAt? s = some found) : Leads found s := by
  unfold placeholderAt? at h
  split at h
  · obtain ⟨found, hfound, rfl⟩ := Option.map_eq_some_iff.mp h
    obtain ⟨body, after, rfl, rfl, hbody, hfirst⟩ := closedBy_eq_some hfound
    exact ⟨(['{', '{'], ['}', '}']), by decide, body, after, rfl, rfl,
      fun hmem => absurd (hbody hmem) (by decide), hfirst⟩
  · obtain ⟨found, hfound, rfl⟩ := Option.map_eq_some_iff.mp h
    obtain ⟨body, after, rfl, rfl, hbody, hfirst⟩ := closedBy_eq_some hfound
    exact ⟨(['{', '%'], ['%', '}']), by decide, body, after, rfl, rfl,
      fun hmem => absurd (hbody hmem) (by decide), hfirst⟩
  · cases h

/-- Where none is found at the head of a text, every closing delimiter of what is opened there stands
    on a line further down. -/
theorem placeholderAt?_eq_none_imp (h : placeholderAt? s = none) {d : List Char × List Char}
    (hd : d ∈ delimiters) {body after : List Char} (hs : s = d.1 ++ body ++ d.2 ++ after) :
    '\n' ∈ body := by
  simp only [delimiters, List.mem_cons, List.not_mem_nil, or_false] at hd
  rcases hd with rfl | rfl
  all_goals
    subst hs
    exact closedBy_eq_none (Option.map_eq_none_iff.mp h) rfl

/-- **A placeholder that is found** begins first, in the line that is told. -/
theorem placeholderFrom?_eq_some (h : placeholderFrom? line s = some (found, n)) :
    ∃ before rest, s = before ++ rest ∧ Leads found rest ∧ n = line + before.count '\n' ∧
      ∀ before' rest' found', s = before' ++ rest' → Leads found' rest' →
        before.length ≤ before'.length := by
  induction s generalizing line with
  | nil => cases h
  | cons c s ih =>
    rw [placeholderFrom?] at h
    split at h
    · rename_i hfound
      cases h
      exact ⟨[], c :: s, rfl, placeholderAt?_eq_some hfound, rfl, by simp⟩
    · rename_i hnone
      obtain ⟨before, rest, rfl, hleads, rfl, hfirst⟩ := ih h
      refine ⟨c :: before, rest, rfl, hleads, ?_, ?_⟩
      · by_cases hline : c = '\n'
        · subst hline
          rw [lineAfter, if_pos rfl, List.count_cons_self]
          omega
        · rw [lineAfter, if_neg hline, List.count_cons_of_ne hline]
      · intro before' rest' found' htext hother
        cases before' with
        | nil =>
          -- none begins at the head
          obtain ⟨d, hd, body, after, rfl, rfl, hbody, -⟩ := hother
          exact absurd (placeholderAt?_eq_none_imp hnone hd htext) hbody
        | cons e before' =>
          exact Nat.succ_le_succ (hfirst before' rest' found' (List.cons.inj htext).2 hother)

/-- **Where none is found**, no line holds one. -/
theorem placeholderFrom?_eq_none (h : placeholderFrom? line s = none) {d : List Char × List Char}
    (hd : d ∈ delimiters) {before body after : List Char}
    (hs : s = before ++ d.1 ++ body ++ d.2 ++ after) : '\n' ∈ body := by
  induction s generalizing line before with
  | nil =>
    simp only [delimiters, List.mem_cons, List.not_mem_nil, or_false] at hd
    rcases hd with rfl | rfl <;> simp at hs
  | cons c s ih =>
    rw [placeholderFrom?] at h
    split at h
    · cases h
    · rename_i hnone
      cases before with
      | nil => exact placeholderAt?_eq_none_imp hnone hd hs
      | cons e before => exact ih h (List.cons.inj hs).2

/-- **A placeholder is found in a text** exactly when one of its lines holds one. -/
theorem isSome_placeholderFrom?_iff : (placeholderFrom? line s).isSome ↔ Unfilled s := by
  constructor
  · intro h
    obtain ⟨⟨found, n⟩, hfound⟩ := Option.isSome_iff_exists.mp h
    obtain ⟨before, rest, rfl, ⟨d, hd, body, after, rfl, rfl, hbody, -⟩, -⟩ :=
      placeholderFrom?_eq_some hfound
    -- no line ends inside, so that it stands in one line
    have hfound : '\n' ∉ d.1 ++ body ++ d.2 := by
      have hdelimiters : ∀ d ∈ delimiters, '\n' ∉ d.1 ∧ '\n' ∉ d.2 := by decide
      simp [hdelimiters d hd, hbody]
    have hinside : d.1 ++ body ++ d.2 <:+: before ++ (d.1 ++ body ++ d.2 ++ after) :=
      ⟨before, after, by simp⟩
    obtain ⟨line, hline, first, last, rfl⟩ := Text.exists_mem_cut_of_infix hfound hinside
    exact ⟨_, hline, d, hd, first, body, last, by simp⟩
  · rintro ⟨line, hline, d, hd, first, body, last, rfl⟩
    by_contra hnone
    obtain ⟨before, after, htext⟩ := Text.infix_of_mem_cut hline
    have hplace : s = (before ++ first) ++ d.1 ++ body ++ d.2 ++ (last ++ after) := by
      rw [← htext]
      simp
    have hbody : '\n' ∈ body := placeholderFrom?_eq_none (by simpa using hnone) hd hplace
    exact Text.not_mem_of_mem_cut hline (by simp [hbody])

instance (text : List Char) : Decidable (Unfilled text) :=
  decidable_of_iff ((placeholderFrom? 1 text).isSome = true) isSome_placeholderFrom?_iff

/-! ### The table -/

/-- A TypeScript file whose brackets do not nest. -/
def Unbalanced (file : String × String) : Prop :=
  ".ts".toList <:+ file.1.toList ∧ imbalance? file.2.toList ≠ none

instance (file : String × String) : Decidable (Unbalanced file) := inferInstanceAs (Decidable (_ ∧ _))

variable {files : List (String × String)} {file : String × String} {fault : Fault}

/-- The fault of an unfilled file is its first placeholder. -/
theorem placeholderFault?_eq_some {content : String} (h : placeholderFault? content = some fault) :
    ∃ found line, FirstPlaceholder content.toList found line ∧
      fault = .placeholder (.ofList found) line := by
  obtain ⟨⟨found, line⟩, hfound, rfl⟩ := Option.map_eq_some_iff.mp h
  exact ⟨found, line, placeholderFrom?_eq_some hfound, rfl⟩

/-- A file has such a fault exactly when it is unfilled. -/
theorem isSome_placeholderFault?_iff {content : String} :
    (placeholderFault? content).isSome ↔ Unfilled content.toList := by
  rw [placeholderFault?, Option.isSome_map, isSome_placeholderFrom?_iff]

/-- It has none exactly when it is not. -/
theorem isNone_placeholderFault?_iff {content : String} :
    (placeholderFault? content).isNone = true ↔ ¬Unfilled content.toList := by
  rw [← isSome_placeholderFault?_iff, Option.not_isSome_iff_eq_none, Option.isNone_iff_eq_none]

/-- A file has a fault in its brackets exactly when it is unbalanced. -/
theorem isSome_bracketFault?_iff : (bracketFault? file.1 file.2).isSome ↔ Unbalanced file := by
  unfold bracketFault? Unbalanced
  rw [← Text.endsWith_iff, ← Option.isSome_iff_ne_none]
  split
  · rename_i hend
    rw [Option.isSome_map]
    exact ⟨fun h => ⟨hend, h⟩, fun h => h.2⟩
  · rename_i hend
    exact ⟨fun h => absurd h (by simp), fun h => absurd h.1 hend⟩

/-- The table of the files that a check faults. -/
def faultsBy (check : String × String → Option Fault) (files : List (String × String)) :
    List (String × Fault) :=
  files.filterMap fun file => (check file).map (file.1, ·)

/-- Its names are those of the files at fault, in order. -/
theorem map_fst_faultsBy (check : String × String → Option Fault) (files : List (String × String)) :
    (faultsBy check files).map Prod.fst =
      (files.filter fun file => (check file).isSome).map Prod.fst := by
  induction files with
  | nil => rfl
  | cons file files ih =>
    unfold faultsBy at ih ⊢
    cases hcheck : check file <;> simp [hcheck, ih]

/-- What it holds is the fault of a file. -/
theorem mem_faultsBy {check : String × String → Option Fault} {entry : String × Fault} :
    entry ∈ faultsBy check files ↔ ∃ file ∈ files, file.1 = entry.1 ∧ check file = some entry.2 := by
  rw [faultsBy, List.mem_filterMap]
  constructor
  · rintro ⟨file, hfile, hentry⟩
    obtain ⟨fault, hfault, rfl⟩ := Option.map_eq_some_iff.mp hentry
    exact ⟨file, hfile, rfl, hfault⟩
  · rintro ⟨file, hfile, hname, hfault⟩
    exact ⟨file, hfile, by rw [hfault, Option.map_some, hname]⟩

/-- Where no two files have one name, a file is told by its name among those that are kept. -/
theorem mem_map_fst_filter {p : String × String → Bool} (hnames : (files.map Prod.fst).Nodup)
    (hfile : file ∈ files) : file.1 ∈ (files.filter p).map Prod.fst ↔ p file = true := by
  rw [List.mem_map]
  constructor
  · rintro ⟨other, hother, hsame⟩
    rw [List.mem_filter] at hother
    rw [← List.inj_on_of_nodup_map hnames hother.1 hfile hsame]
    exact hother.2
  · intro h
    exact ⟨file, List.mem_filter.mpr ⟨hfile, h⟩, rfl⟩

/-- **The table of a review**: the faults of the first check, and those of the second where the first
    found nothing. -/
theorem review_eq (hnames : (files.map Prod.fst).Nodup) :
    review files = faultsBy (fun file => placeholderFault? file.2) files ++
      faultsBy (fun file => bracketFault? file.1 file.2)
        (files.filter fun file => (placeholderFault? file.2).isNone) := by
  have hbrackets : ((bracketFaults files).map Prod.fst).Nodup := by
    show ((faultsBy (fun file => bracketFault? file.1 file.2) files).map Prod.fst).Nodup
    rw [map_fst_faultsBy]
    exact hnames.sublist (List.filter_sublist.map _)
  rw [review, foldl_putNew hbrackets]
  congr 1
  -- a file is told by its name, so that the names without a placeholder are those of such files
  show (faultsBy (fun file => bracketFault? file.1 file.2) files).filter _ = _
  unfold faultsBy
  rw [List.filter_filterMap, List.filterMap_filter]
  refine List.filterMap_congr fun file hfile => ?_
  have hname : file.1 ∈ (placeholderFaults files).map Prod.fst ↔
      (placeholderFault? file.2).isSome := by
    show file.1 ∈ (faultsBy (fun file => placeholderFault? file.2) files).map Prod.fst ↔ _
    rw [map_fst_faultsBy]
    exact mem_map_fst_filter hnames hfile
  dsimp only
  cases bracketFault? file.1 file.2 with
  | none => simp
  | some fault =>
    rw [Option.map_some, Option.filter_some]
    dsimp only
    cases hplaceholder : placeholderFault? file.2 with
    | none =>
      rw [hplaceholder] at hname
      simp only [hname, Option.isSome_none, Bool.false_eq_true, not_false_eq_true, decide_true,
        Option.isNone_none, if_true]
    | some placeholder =>
      rw [hplaceholder] at hname
      simp only [hname, Option.isSome_some, not_true_eq_false, decide_false, Bool.false_eq_true,
        Option.isNone_some, if_false]

/-- What the table holds at the name of a file is a fault of that file. -/
theorem fault_of_mem_review (hnames : (files.map Prod.fst).Nodup) (hfile : file ∈ files)
    (h : (file.1, fault) ∈ review files) :
    placeholderFault? file.2 = some fault ∨
      (¬Unfilled file.2.toList ∧ bracketFault? file.1 file.2 = some fault) := by
  rw [review_eq hnames, List.mem_append, mem_faultsBy, mem_faultsBy] at h
  rcases h with ⟨other, hother, hsame, hfound⟩ | ⟨other, hother, hsame, hfound⟩
  · obtain rfl := List.inj_on_of_nodup_map hnames hother hfile hsame
    exact .inl hfound
  · rw [List.mem_filter, isNone_placeholderFault?_iff] at hother
    obtain rfl := List.inj_on_of_nodup_map hnames hother.1 hfile hsame
    exact .inr ⟨hother.2, hfound⟩

/-- **The names in the table** are those of the unfilled files, and then those of the others that are
    unbalanced. -/
theorem map_fst_review (hnames : (files.map Prod.fst).Nodup) :
    (review files).map Prod.fst =
      (files.filter fun file => Unfilled file.2.toList).map Prod.fst ++
        (files.filter fun file => ¬Unfilled file.2.toList ∧ Unbalanced file).map Prod.fst := by
  rw [review_eq hnames, List.map_append, map_fst_faultsBy, map_fst_faultsBy, List.filter_filter]
  congr 2
  · refine List.filter_congr fun file _ => ?_
    rw [Bool.eq_iff_iff, isSome_placeholderFault?_iff, decide_eq_true_iff]
  · refine List.filter_congr fun file _ => ?_
    rw [Bool.eq_iff_iff, Bool.and_eq_true, isSome_bracketFault?_iff, isNone_placeholderFault?_iff,
      decide_eq_true_iff, and_comm]

/-- The wording of a placeholder quotes it, with its line. -/
theorem message_placeholder (found : String) (line : Nat) :
    (Fault.placeholder found line).message =
      "Unresolved placeholder " ++ Text.quoted found ++ " (line " ++ toString line ++ ")" := by
  show "Unresolved placeholder " ++ Text.quoted found ++ inLine line = _
  rw [inLine, ← String.append_assoc, ← String.append_assoc]

/-- A table tells of the files at fault, and of no others. -/
structure Reports (files : List (String × String)) (faults : List (String × Fault)) : Prop where
  /-- The unfilled files come first, and then the others that are unbalanced, both in file order. -/
  names : faults.map Prod.fst = (files.filter fun file => Unfilled file.2.toList).map Prod.fst ++
    (files.filter fun file => ¬Unfilled file.2.toList ∧ Unbalanced file).map Prod.fst
  /-- A file is in the table exactly when it is at fault. -/
  mem_iff : ∀ file ∈ files, file.1 ∈ faults.map Prod.fst ↔ Unfilled file.2.toList ∨ Unbalanced file
  /-- An unfilled file has its first placeholder quoted, with its line. -/
  placeholder : ∀ file ∈ files, Unfilled file.2.toList → ∀ fault, (file.1, fault) ∈ faults →
    ∃ found line, FirstPlaceholder file.2.toList found line ∧
      fault = .placeholder (.ofList found) line ∧
      fault.message = "Unresolved placeholder " ++ Text.quoted (.ofList found) ++ " (line " ++
        toString line ++ ")"
  /-- Any other file has what is wrong with its brackets. -/
  imbalance : ∀ file ∈ files, ¬Unfilled file.2.toList → ∀ fault, (file.1, fault) ∈ faults →
    ∃ e, imbalance? file.2.toList = some e ∧ fault = .imbalance e

/-- **A review reports the files at fault**, where no two files have one name. -/
theorem review_reports (hnames : (files.map Prod.fst).Nodup) : Reports files (review files) := by
  refine { names := map_fst_review hnames, mem_iff := ?_, placeholder := ?_, imbalance := ?_ }
  · intro file hfile
    rw [map_fst_review hnames, List.mem_append, mem_map_fst_filter hnames hfile,
      mem_map_fst_filter hnames hfile, decide_eq_true_iff, decide_eq_true_iff]
    tauto
  · intro file hfile hholds fault h
    rcases fault_of_mem_review hnames hfile h with h | ⟨hnot, -⟩
    · obtain ⟨found, line, hfirst, hfound⟩ := placeholderFault?_eq_some h
      exact ⟨found, line, hfirst, hfound, by rw [hfound, message_placeholder]⟩
    · exact absurd hholds hnot
  · intro file hfile hnot fault h
    rcases fault_of_mem_review hnames hfile h with h | ⟨-, h⟩
    · exact absurd (isSome_placeholderFault?_iff.mp (by rw [h]; rfl)) hnot
    · unfold bracketFault? at h
      split at h
      · obtain ⟨e, he, rfl⟩ := Option.map_eq_some_iff.mp h
        exact ⟨e, he, rfl⟩
      · cases h

/-- A placeholder whose closing braces stand on the next line, files with a fault of each kind and
    with both, and brackets that are left open in a file of prose. -/
def faultyFiles : List (String × String) :=
  [("open.ts", "f("), ("prose.md", "(a \x7b\x7b b\n\x7d\x7d \x7b% c %\x7d"),
   ("both.ts", "(\x7b\x7b\x7bx\x7d\x7d\x7d"), ("notes.md", "(")]

theorem review_reports_faultyFiles :
    (faultyFiles.map Prod.fst).Nodup ∧
    review faultyFiles =
      [("prose.md", .placeholder "\x7b% c %\x7d" 2),
       ("both.ts", .placeholder "\x7b\x7b\x7bx\x7d\x7d" 1),
       ("open.ts", .imbalance (.unclosed '(' 1))] ∧
    Reports faultyFiles (review faultyFiles) :=
  ⟨by decide, by decide +kernel, review_reports (by decide)⟩

end ApiNodes.Typescript
