import ApiNodes.Typescript.Review
import Mathlib.Tactic.Common

namespace ApiNodes.Typescript

/-!
# Passages of the review

A review reads a file twice: for the nesting of brackets, and for placeholders.  `Watch`
does both in one pass, and is stricter than the second reading: it stops where a
placeholder could begin.  A `Spot` says where a watch stands as far as a template can know
it, without lines and open brackets.

* `Passes` — from one spot to another over a text, with the open brackets as before;
* `Passes.append`, `Passes.group`, `Passes.quote` — passages put together;
* `passes_of_chars` — fixed text passes as `Spot.chars` computes it;
* `review_eq_nil` — files whose texts pass from code to code are not at fault.
-/

/-! ### Watching -/

/-- The state of the scan, and whether the last character was an opening brace. -/
structure Watch where
  scan : Scan := {}
  brace : Bool := false

/-- A character with which a brace before it could begin a placeholder. -/
def opensHole (c : Char) : Bool := c == '{' || c == '%'

/-- One character, if the brackets are right and no placeholder begins. -/
def Watch.step (w : Watch) (c : Char) : Option Watch :=
  if w.brace && opensHole c then none
  else (w.scan.step c).toOption.map fun scan => ⟨scan, c == '{'⟩

/-- A text. -/
def Watch.run (w : Watch) (text : List Char) : Option Watch := text.foldlM Watch.step w

/-- The watch over two texts in a row. -/
theorem Watch.run_append (w : Watch) (a b : List Char) :
    w.run (a ++ b) = (w.run a).bind fun v => v.run b := by
  simp only [Watch.run, List.foldlM_append]
  rfl

/-- A watch over a text with a first character. -/
theorem Watch.run_cons (w : Watch) (c : Char) (s : List Char) :
    w.run (c :: s) = (w.step c).bind fun v => v.run s := rfl

/-- What a step of a watch says about the scan. -/
theorem Watch.step_eq_some_iff {w v : Watch} {c : Char} :
    w.step c = some v ↔
      ¬(w.brace = true ∧ opensHole c = true) ∧ w.scan.step c = .ok v.scan ∧ v.brace = (c == '{') := by
  obtain ⟨scan, brace⟩ := v
  unfold Watch.step
  by_cases h : w.brace = true ∧ opensHole c = true
  · simp [h]
  · have hopen : (w.brace && opensHole c) = false := by simpa using h
    rw [hopen, if_neg Bool.false_ne_true]
    cases hs : w.scan.step c with
    | error e => simp [Except.toOption]
    | ok t =>
      simp only [Except.toOption, Option.map_some, Option.some.injEq, Watch.mk.injEq,
        Except.ok.injEq]
      exact ⟨fun ⟨hscan, hbrace⟩ => ⟨h, hscan, hbrace.symm⟩,
        fun ⟨_, hscan, hbrace⟩ => ⟨hscan, hbrace.symm⟩⟩

/-- The scan goes along with the watch. -/
theorem Watch.scan_run {w v : Watch} {s : List Char} (h : w.run s = some v) :
    w.scan.run s = .ok v.scan := by
  induction s generalizing w with
  | nil =>
    cases h
    rfl
  | cons c s ih =>
    rw [Watch.run_cons] at h
    obtain ⟨u, hu, h⟩ := Option.bind_eq_some_iff.mp h
    obtain ⟨-, hstep, -⟩ := Watch.step_eq_some_iff.mp hu
    show (w.scan.step c).bind (fun t => t.run s) = _
    rw [hstep]
    exact ih h

/-- A placeholder begins with a brace and a character that opens it. -/
theorem placeholderAt?_eq_none {c : Char} {s : List Char}
    (h : c = '{' → ∀ d ∈ s.head?, opensHole d = false) : placeholderAt? (c :: s) = none := by
  unfold placeholderAt?
  split
  · rename_i heq
    cases heq
    simpa [opensHole] using h rfl _ rfl
  · rename_i heq
    cases heq
    simpa [opensHole] using h rfl _ rfl
  · rfl

/-- A watched text holds no placeholder. -/
theorem Watch.placeholderFrom?_eq_none {w v : Watch} {s : List Char} (line : Nat)
    (h : w.run s = some v) : placeholderFrom? line s = none := by
  induction s generalizing w line with
  | nil => rfl
  | cons c s ih =>
    rw [Watch.run_cons] at h
    obtain ⟨u, hu, hs⟩ := Option.bind_eq_some_iff.mp h
    obtain ⟨-, -, hbrace⟩ := Watch.step_eq_some_iff.mp hu
    have hat : placeholderAt? (c :: s) = none := by
      apply placeholderAt?_eq_none
      rintro rfl d hd
      cases s with
      | nil => cases hd
      | cons e s =>
        cases hd
        rw [Watch.run_cons] at hs
        obtain ⟨_, hd, -⟩ := Option.bind_eq_some_iff.mp hs
        obtain ⟨hfree, -, -⟩ := Watch.step_eq_some_iff.mp hd
        simpa [hbrace] using hfree
    rw [placeholderFrom?, hat]
    exact ih _ hs

/-! ### Spots -/

/-- A region of a source text. -/
inductive Region
  | code
  /-- After a slash that may begin a comment. -/
  | slash
  | lineComment
  /-- In a block comment, after a star or not, or it is not known whether. -/
  | blockComment (star : Option Bool)
  /-- In a literal, and not after a backslash. -/
  | literal (quote : Char)
  deriving DecidableEq, Repr

/-- A scan in a mode is in the region. -/
def Region.Holds : Region → Mode → Prop
  | code, m => m = .code
  | slash, m => m = .slash
  | lineComment, m => m = .lineComment
  | blockComment star, m => ∃ b, m = .blockComment b ∧ ∀ known ∈ star, b = known
  | literal quote, m => ∃ opened, m = .literal quote opened false

/-- A region, and whether the last character may have been an opening brace. -/
structure Spot where
  region : Region
  brace : Bool := false
  deriving DecidableEq, Repr

/-- The spot of code. -/
def Spot.code : Spot := ⟨.code, false⟩

/-- A watch stands at a spot. -/
structure Spot.Holds (p : Spot) (w : Watch) : Prop where
  region : p.region.Holds w.scan.mode
  brace : w.brace = true → p.brace = true

/-! ### Fixed text -/

/-- The region after a character of code that is not part of a bracket or a literal. -/
def Region.afterCode (c : Char) : Option Region :=
  if c = '/' then some .slash
  else if isQuote c || isOpener c || (partner? c).isSome then none
  else some .code

/-- The region after a character. -/
def Region.step (r : Region) (c : Char) : Option Region :=
  match r with
  | code => afterCode c
  | slash =>
    if c = '/' then some .lineComment
    else if c = '*' then some (.blockComment (some false))
    else afterCode c
  | lineComment => some (if c = '\n' then .code else .lineComment)
  | blockComment star =>
    if c = '/' then star.map fun b => if b then .code else .blockComment (some false)
    else some (.blockComment (some (c == '*')))
  | literal quote =>
    if c = '\\' ∨ c = quote ∨ (c = '\n' ∧ quote ≠ '\x60') then none else some (.literal quote)

/-- The spot after a character. -/
def Spot.step (p : Spot) (c : Char) : Option Spot :=
  if p.brace && opensHole c then none else (p.region.step c).map fun r => ⟨r, c == '{'⟩

/-- The spot after a text. -/
def Spot.chars (p : Spot) (s : List Char) : Option Spot := s.foldlM Spot.step p

/-- A character of code leads where its region says. -/
theorem code_of_afterCode {s : Scan} {c : Char} {r : Region} (h : Region.afterCode c = some r) :
    ∃ t, s.code c = .ok t ∧ r.Holds t.mode ∧ t.stack = s.stack := by
  unfold Region.afterCode at h
  unfold Scan.code
  by_cases hline : c = '\n'
  · subst hline
    obtain rfl : .code = r := by simpa [isQuote, isOpener, partner?] using h
    simp [Region.Holds]
  · by_cases hslash : c = '/'
    · subst hslash
      cases h
      simp [Region.Holds]
    · simp only [hslash, if_false, Option.ite_none_left_eq_some, Bool.or_eq_true, not_or,
        Bool.not_eq_true, Option.isSome_eq_false_iff, Option.isNone_iff_eq_none,
        Option.some.injEq] at h
      obtain ⟨⟨⟨hquote, hopener⟩, hpartner⟩, rfl⟩ := h
      simp [hline, hslash, hquote, hopener, hpartner, Region.Holds]

/-- A scan goes on as its region does. -/
theorem scan_step_of_region {s : Scan} {p r : Region} {c : Char} (hp : p.Holds s.mode)
    (h : p.step c = some r) : ∃ t, s.step c = .ok t ∧ r.Holds t.mode ∧ t.stack = s.stack := by
  obtain ⟨mode, stack, line⟩ := s
  cases p with
  | code =>
    cases hp
    exact code_of_afterCode h
  | slash =>
    -- the character opens a comment, or goes on as code
    cases hp
    simp only [Region.step] at h
    simp only [Scan.step]
    split at h
    · rename_i hc
      cases h
      simp [hc, Region.Holds]
    · rename_i hc
      split at h
      · rename_i hc'
        cases h
        simp [hc', Region.Holds]
      · rename_i hc'
        rw [if_neg hc, if_neg hc']
        exact code_of_afterCode h
  | lineComment =>
    cases hp
    simp only [Region.step, Option.some.injEq] at h
    subst h
    by_cases hc : c = '\n'
    · simp [Scan.step, Scan.code, hc, Region.Holds]
    · simp [Scan.step, hc, Region.Holds]
  | blockComment star =>
    -- a slash leads on only where it is known whether a star came before it
    obtain ⟨b, rfl, hb⟩ := hp
    simp only [Region.step] at h
    simp only [Scan.step]
    by_cases hc : c = '/'
    · rw [if_pos hc] at h
      obtain ⟨known, rfl, rfl⟩ := Option.map_eq_some_iff.mp h
      cases hb known rfl
      cases b <;> simp [hc, Region.Holds]
    · rw [if_neg hc, Option.some.injEq] at h
      subst h
      simp [hc, Region.Holds]
  | literal quote =>
    obtain ⟨opened, rfl⟩ := hp
    simp only [Region.step] at h
    split at h
    · cases h
    · rename_i hc
      cases h
      push Not at hc
      simp only [Scan.step, if_neg hc.1, if_neg hc.2.1]
      rw [if_neg (fun hline => hline.2 (hc.2.2 hline.1))]
      exact ⟨_, rfl, ⟨opened, rfl⟩, rfl⟩

/-! ### Passages -/

/-- From every watch at the first spot a text leads to a watch at the second, with the same
    open brackets. -/
def Passes (p : Spot) (s : List Char) (q : Spot) : Prop :=
  ∀ w : Watch, p.Holds w → ∃ v, w.run s = some v ∧ q.Holds v ∧ v.scan.stack = w.scan.stack

variable {p q r : Spot} {s t : List Char} {c : Char}

/-- Nothing is passed over on the spot. -/
theorem Passes.nil (p : Spot) : Passes p [] p := fun w hw => ⟨w, rfl, hw, rfl⟩

/-- Passages in a row. -/
theorem Passes.append (hs : Passes p s q) (ht : Passes q t r) : Passes p (s ++ t) r := by
  intro w hw
  obtain ⟨v, hv, hq, hstack⟩ := hs w hw
  obtain ⟨u, hu, hr, hstack'⟩ := ht v hq
  refine ⟨u, ?_, hr, hstack'.trans hstack⟩
  rw [Watch.run_append, hv]
  exact hu

/-- More may be known before a passage, and less after it. -/
theorem Passes.mono {p' q' : Spot} (hp : ∀ w, p'.Holds w → p.Holds w)
    (hq : ∀ w, q.Holds w → q'.Holds w) (h : Passes p s q) : Passes p' s q' := by
  intro w hw
  obtain ⟨v, hv, hq', hstack⟩ := h w (hp w hw)
  exact ⟨v, hv, hq v hq', hstack⟩

/-- One character. -/
theorem passes_of_step (h : p.step c = some q) : Passes p [c] q := by
  intro w hw
  unfold Spot.step at h
  split at h
  · cases h
  · rename_i hopen
    obtain ⟨region, hregion, rfl⟩ := Option.map_eq_some_iff.mp h
    obtain ⟨t, ht, hmode, hstack⟩ := scan_step_of_region hw.region hregion
    refine ⟨⟨t, c == '{'⟩, ?_, ⟨hmode, id⟩, hstack⟩
    rw [Watch.run_cons, Watch.step_eq_some_iff (v := ⟨t, c == '{'⟩) |>.mpr ⟨?_, ht, rfl⟩]
    · rfl
    · rintro ⟨hbrace, hc⟩
      exact hopen (by simp [hw.brace hbrace, hc])

/-- Fixed text. -/
theorem passes_of_chars (h : p.chars s = some q) : Passes p s q := by
  induction s generalizing p with
  | nil =>
    cases h
    exact .nil _
  | cons c s ih =>
    obtain ⟨r, hr, h⟩ := Option.bind_eq_some_iff.mp h
    exact (passes_of_step hr).append (ih h)

/-- Many texts one after the other that each lead back. -/
theorem Passes.flatten {texts : List (List Char)} (h : ∀ s ∈ texts, Passes p s p) :
    Passes p texts.flatten p := by
  induction texts with
  | nil => exact .nil p
  | cons s texts ih =>
    rw [List.flatten_cons]
    exact (h s List.mem_cons_self).append (ih fun t ht => h t (List.mem_cons_of_mem s ht))

/-- A text whose characters each lead back. -/
theorem Passes.of_forall (h : ∀ c ∈ s, Passes p [c] p) : Passes p s p := by
  induction s with
  | nil => exact .nil p
  | cons c s ih =>
    exact (h c List.mem_cons_self).append (ih fun d hd => h d (List.mem_cons_of_mem c hd))

/-! ### Groups and literals -/

/-- An opening bracket in code is put on the stack. -/
theorem Watch.step_opener {w : Watch} (hcode : w.scan.mode = .code) (ho : isOpener c = true)
    (hfree : w.brace = true → opensHole c = false) :
    w.step c = some ⟨⟨.code, (c, w.scan.line) :: w.scan.stack, w.scan.line⟩, c == '{'⟩ := by
  refine Watch.step_eq_some_iff.mpr ⟨fun ⟨hb, hc⟩ => ?_, ?_, rfl⟩
  · simp [hfree hb] at hc
  · simp only [isOpener, Bool.or_eq_true, beq_iff_eq] at ho
    rw [Scan.step, hcode]
    rcases ho with (rfl | rfl) | rfl <;> rfl

/-- A closing bracket in code takes its partner from the stack. -/
theorem Watch.step_closer {w : Watch} {opener : Char} {line : Nat} {rest : List (Char × Nat)}
    (hcode : w.scan.mode = .code) (hc : partner? c = some opener)
    (hstack : w.scan.stack = (opener, line) :: rest) :
    w.step c = some ⟨⟨.code, rest, w.scan.line⟩, false⟩ := by
  have hcloser : c = ')' ∨ c = ']' ∨ c = '}' := by
    by_contra hnone
    push Not at hnone
    simp [partner?, hnone] at hc
  refine Watch.step_eq_some_iff.mpr ⟨fun ⟨_, hopen⟩ => ?_, ?_, ?_⟩
  · rcases hcloser with rfl | rfl | rfl <;> simp [opensHole] at hopen
  · rw [Scan.step, hcode]
    rcases hcloser with rfl | rfl | rfl <;>
      (cases hc; simp [Scan.code, isQuote, isOpener, partner?, hstack])
  · rcases hcloser with rfl | rfl | rfl <;> rfl

/-- What stands between brackets of one kind is passed over with one more open bracket. -/
theorem Passes.group {opener closer : Char} {b b' : Bool} (ho : isOpener opener = true)
    (hc : partner? closer = some opener) (hfree : b = true → opensHole opener = false)
    (h : Passes ⟨.code, opener == '{'⟩ s ⟨.code, b'⟩) :
    Passes ⟨.code, b⟩ (opener :: s ++ [closer]) .code := by
  intro w hw
  have hopen := Watch.step_opener hw.region ho fun hb => hfree (hw.brace hb)
  obtain ⟨v, hv, hq, hstack⟩ :=
    h ⟨⟨.code, (opener, w.scan.line) :: w.scan.stack, w.scan.line⟩, opener == '{'⟩ ⟨rfl, id⟩
  have hclose := Watch.step_closer hq.region hc hstack
  refine ⟨⟨⟨.code, w.scan.stack, v.scan.line⟩, false⟩, ?_, ⟨rfl, id⟩, rfl⟩
  rw [Watch.run_append, Watch.run_cons, hopen, Option.bind_some, hv, Option.bind_some,
    Watch.run_cons, hclose]
  rfl

/-- A quote is not part of a placeholder. -/
theorem opensHole_of_isQuote (h : isQuote c = true) : opensHole c = false ∧ (c == '{') = false := by
  simp only [isQuote, Bool.or_eq_true, beq_iff_eq] at h
  rcases h with (rfl | rfl) | rfl <;> exact ⟨rfl, rfl⟩

/-- What stands between quotes of one kind. -/
theorem Passes.quote {b b' : Bool} (hquote : isQuote c = true)
    (h : Passes ⟨.literal c, false⟩ s ⟨.literal c, b'⟩) :
    Passes ⟨.code, b⟩ (c :: s ++ [c]) .code := by
  intro w hw
  have hmode : w.scan.mode = .code := hw.region
  obtain ⟨hopens, hbrace⟩ := opensHole_of_isQuote hquote
  have hopen : w.step c =
      some ⟨⟨.literal c w.scan.line false, w.scan.stack, w.scan.line⟩, false⟩ := by
    refine Watch.step_eq_some_iff.mpr ⟨fun ⟨_, hc⟩ => by simp [hopens] at hc, ?_, hbrace.symm⟩
    simp only [isQuote, Bool.or_eq_true, beq_iff_eq] at hquote
    rw [Scan.step, hmode]
    rcases hquote with (rfl | rfl) | rfl <;> rfl
  obtain ⟨v, hv, hq, hstack⟩ :=
    h ⟨⟨.literal c w.scan.line false, w.scan.stack, w.scan.line⟩, false⟩ ⟨⟨_, rfl⟩, id⟩
  obtain ⟨opened, hmode'⟩ := hq.region
  -- the text leads to a watch inside the same literal, which the quote ends
  have hclose : v.step c = some ⟨{ v.scan with mode := .code }, false⟩ := by
    refine Watch.step_eq_some_iff.mpr ⟨fun ⟨_, hc⟩ => by simp [hopens] at hc, ?_, hbrace.symm⟩
    simp only [isQuote, Bool.or_eq_true, beq_iff_eq] at hquote
    rw [Scan.step, hmode']
    rcases hquote with (rfl | rfl) | rfl <;> rfl
  refine ⟨⟨{ v.scan with mode := .code }, false⟩, ?_, ⟨rfl, id⟩, hstack⟩
  rw [Watch.run_append, Watch.run_cons, hopen, Option.bind_some, hv, Option.bind_some,
    Watch.run_cons, hclose]
  rfl

/-! ### Files -/

/-- A text that passes from code to code has its brackets right. -/
theorem Passes.imbalance?_eq_none {b : Bool} (h : Passes .code s ⟨.code, b⟩) :
    imbalance? s = none := by
  obtain ⟨v, hv, hq, hstack⟩ := h {} ⟨rfl, id⟩
  have hmode : v.scan.mode = .code := hq.region
  have hstack' : v.scan.stack = [] := hstack
  rw [imbalance?, Watch.scan_run hv]
  simp [Except.bind, Scan.finish, hmode, hstack']

/-- A text that passes from anywhere to anywhere holds no placeholder. -/
theorem Passes.placeholderFault?_eq_none {content : String} (h : Passes .code content.toList q) :
    placeholderFault? content = none := by
  obtain ⟨v, hv, -, -⟩ := h {} ⟨rfl, id⟩
  rw [placeholderFault?, Watch.placeholderFrom?_eq_none 1 hv]
  rfl

/-- Files whose texts pass from code to code are not at fault. -/
theorem review_eq_nil {files : List (String × String)}
    (h : ∀ file ∈ files, Passes .code file.2.toList .code) : review files = [] := by
  have hplaceholder : placeholderFaults files = [] := by
    refine List.filterMap_eq_nil_iff.mpr fun file hfile => ?_
    simp [(h file hfile).placeholderFault?_eq_none]
  have hbracket : bracketFaults files = [] := by
    refine List.filterMap_eq_nil_iff.mpr fun file hfile => ?_
    simp [bracketFault?, (h file hfile).imbalance?_eq_none]
  rw [review, hplaceholder, hbracket]
  rfl

/-- Files are not at fault exactly when neither check finds anything in one of them. -/
theorem review_eq_nil_iff_forall {files : List (String × String)} :
    review files = [] ↔
      ∀ file ∈ files, placeholderFault? file.2 = none ∧ bracketFault? file.1 file.2 = none := by
  -- faults are put together one by one, and putting one in never leaves nothing
  have hfold (found : List (String × Fault)) : ∀ faults : List (String × Fault),
      faults.foldl (fun found fault => putNew fault.1 fault.2 found) found = [] ↔
        found = [] ∧ faults = [] := by
    intro faults
    induction faults generalizing found with
    | nil => simp
    | cons fault faults ih =>
      rw [List.foldl_cons, ih]
      have hput : putNew fault.1 fault.2 found ≠ [] := by
        unfold putNew
        split
        · rename_i hfound
          rintro rfl
          cases hfound
        · simp
      simp [hput]
  rw [review, hfold, placeholderFaults, bracketFaults, List.filterMap_eq_nil_iff,
    List.filterMap_eq_nil_iff]
  simp only [Option.map_eq_none_iff]
  exact ⟨fun h file hfile => ⟨h.1 file hfile, h.2 file hfile⟩,
    fun h => ⟨fun file hfile => (h file hfile).1, fun file hfile => (h file hfile).2⟩⟩

/-- Files are not at fault exactly when none of them is on its own. -/
theorem review_eq_nil_iff {files : List (String × String)} :
    review files = [] ↔ ∀ file ∈ files, review [file] = [] := by
  simp only [review_eq_nil_iff_forall, List.mem_singleton, forall_eq]

end ApiNodes.Typescript
