import ApiNodes.Proofs.Text.Pieces
import ApiNodes.Typescript.Brackets
import Mathlib.Tactic.Common

namespace ApiNodes.Typescript

/-!
# Pieces of source texts

A source text is cut, from left to right, into comments, literals and single other characters.
`Splits` says without a scan how that is done: each piece is checked with the text that really
follows it, so that no comment can be cut short.

* `exists_splits` — every text is cut into pieces, up to a literal that is not terminated;
* `finish_of_unterminated` — what the scan does with such a literal;
* `reads_quiet`, `reads_opener`, `reads_closer`, `run_unexpected` — what it does with a piece.
-/

/-! ### Pieces -/

/-- A piece of a source text. -/
inductive Piece
  | lineComment (body : List Char)
  | blockComment (body : List Char)
  /-- A block comment that goes on to the end of the text. -/
  | openComment (body : List Char)
  | literal (quote : Char) (body : List Char)
  /-- A single character that belongs to none of the others. -/
  | other (c : Char)
  deriving DecidableEq, Repr

/-- The text of a piece. -/
def Piece.text : Piece → List Char
  | lineComment body => '/' :: '/' :: body
  | blockComment body => '/' :: '*' :: (body ++ ['*', '/'])
  | openComment body => '/' :: '*' :: body
  | literal quote body => quote :: (body ++ [quote])
  | other c => [c]

/-- The text of pieces in a row. -/
def textOf (pieces : List Piece) : List Char := pieces.flatMap Piece.text

/-- The text between two quotes of a kind: a backslash takes the next character with it, and only
    a back quote lets a line end. -/
inductive LiteralBody (quote : Char) : List Char → Prop
  | nil : LiteralBody quote []
  | escaped (c : Char) {s : List Char} (h : LiteralBody quote s) :
    LiteralBody quote ('\\' :: c :: s)
  | plain {c : Char} {s : List Char} (hescape : c ≠ '\\') (hquote : c ≠ quote)
    (hline : c = '\n' → quote = '\x60') (h : LiteralBody quote s) : LiteralBody quote (c :: s)

/-- After a quote, a literal is terminated by another one. -/
def Terminated (quote : Char) (s : List Char) : Prop :=
  ∃ body rest, LiteralBody quote body ∧ s = body ++ quote :: rest

/-- The end of a block comment stands somewhere in a text. -/
def HoldsEnd (s : List Char) : Prop := ['*', '/'] <:+: s

/-- A piece stands in front of the rest of a text: a line comment reaches up to the end of the line,
    a block comment to its first end, and a slash alone begins no comment. -/
def Piece.Stands : Piece → List Char → Prop
  | lineComment body, rest => '\n' ∉ body ∧ ∀ c ∈ rest.head?, c = '\n'
  | blockComment body, _ => ¬HoldsEnd body
  | openComment body, rest => ¬HoldsEnd body ∧ rest = []
  | literal quote body, _ => isQuote quote = true ∧ LiteralBody quote body
  | other c, rest => isQuote c = false ∧ (c = '/' → ∀ d ∈ rest.head?, d ≠ '/' ∧ d ≠ '*')

/-- Pieces stand one after the other in front of the rest of a text. -/
def Splits : List Piece → List Char → Prop
  | [], _ => True
  | p :: ps, rest => p.Stands (textOf ps ++ rest) ∧ Splits ps rest

variable {p : Piece} {ps qs : List Piece} {s rest body : List Char} {c quote : Char}

@[simp] theorem textOf_nil : textOf [] = [] := rfl

@[simp] theorem textOf_cons : textOf (p :: ps) = p.text ++ textOf ps := rfl

@[simp] theorem textOf_append : textOf (ps ++ qs) = textOf ps ++ textOf qs := List.flatMap_append

/-- Pieces in front of others. -/
theorem splits_append : Splits (ps ++ qs) rest ↔ Splits ps (textOf qs ++ rest) ∧ Splits qs rest := by
  induction ps with
  | nil => simp [Splits]
  | cons p ps ih =>
    simp only [List.cons_append, Splits, ih, textOf_append, List.append_assoc]
    exact and_assoc.symm

/-! ### Cutting a text -/

/-- What holds the end of a comment holds a first one. -/
theorem exists_first_end (h : HoldsEnd s) :
    ∃ body rest, s = body ++ '*' :: '/' :: rest ∧ ¬HoldsEnd body := by
  induction s with
  | nil => exact absurd (List.infix_nil.mp h) (by simp)
  | cons c s ih =>
    by_cases hfirst : ['*', '/'] <+: c :: s
    · obtain ⟨rest, hrest⟩ := hfirst
      refine ⟨[], rest, hrest.symm, ?_⟩
      intro hnil
      exact absurd (List.infix_nil.mp hnil) (by simp)
    · obtain ⟨body, rest, rfl, hbody⟩ := ih ((List.infix_cons_iff.mp h).resolve_left hfirst)
      refine ⟨c :: body, rest, rfl, ?_⟩
      intro hmore
      rcases List.infix_cons_iff.mp hmore with hfront | hinfix
      · -- an end at the front of the body would be one at the front of the text
        exact hfirst (hfront.trans ⟨'*' :: '/' :: rest, rfl⟩)
      · exact hbody hinfix

/-- A text begins with a piece, unless it begins with a literal that is not terminated. -/
theorem exists_piece (c : Char) (s : List Char) :
    (isQuote c = true ∧ ¬Terminated c s) ∨
      ∃ (p : Piece) (rest : List Char), c :: s = p.text ++ rest ∧ p.Stands rest ∧
        rest.length < (c :: s).length := by
  by_cases hquote : isQuote c = true
  · by_cases hend : Terminated c s
    · obtain ⟨body, rest, hbody, rfl⟩ := hend
      exact .inr ⟨.literal c body, rest, by simp [Piece.text], ⟨hquote, hbody⟩, by simp; omega⟩
    · exact .inl ⟨hquote, hend⟩
  · right
    have hother : isQuote c = false := Bool.eq_false_iff.mpr hquote
    by_cases hline : c = '/' ∧ ∃ t, s = '/' :: t
    · obtain ⟨rfl, t, rfl⟩ := hline
      -- a line comment, which lasts to the end of the line
      obtain ⟨rest, ht, hline, hrest⟩ :=
        Text.takeWhile_ne_eq_iff.mp (Eq.refl (t.takeWhile (· != '\n')))
      refine ⟨.lineComment _, rest, congrArg ('/' :: '/' :: ·) ht, ⟨hline, hrest⟩, ?_⟩
      have hlength := congrArg List.length ht
      rw [List.length_append] at hlength
      simp only [List.length_cons]
      omega
    · by_cases hblock : c = '/' ∧ ∃ t, s = '*' :: t
      · obtain ⟨rfl, t, rfl⟩ := hblock
        -- a block comment, which may not end
        by_cases hend : HoldsEnd t
        · obtain ⟨body, rest, rfl, hbody⟩ := exists_first_end hend
          exact ⟨.blockComment body, rest, by simp [Piece.text], hbody, by simp; omega⟩
        · exact ⟨.openComment t, [], by simp [Piece.text], ⟨hend, rfl⟩, by simp⟩
      · refine ⟨.other c, s, rfl, ⟨hother, ?_⟩, by simp⟩
        intro hslash d hd
        constructor
        · rintro rfl
          exact hline ⟨hslash, List.head?_eq_some_iff.mp hd⟩
        · rintro rfl
          exact hblock ⟨hslash, List.head?_eq_some_iff.mp hd⟩

/-- **Every text is cut into pieces**, up to its end or to a literal that is not terminated. -/
theorem exists_splits (s : List Char) :
    ∃ ps rest, s = textOf ps ++ rest ∧ Splits ps rest ∧
      (rest = [] ∨ ∃ quote t, rest = quote :: t ∧ isQuote quote = true ∧ ¬Terminated quote t) := by
  -- a piece is not empty, so that what follows it is shorter
  induction hlength : s.length using Nat.strongRecOn generalizing s with
  | _ n ih =>
    cases s with
    | nil => exact ⟨[], [], rfl, trivial, .inl rfl⟩
    | cons c t =>
      rcases exists_piece c t with ⟨hquote, hend⟩ | ⟨p, rest, htext, hstands, hshort⟩
      · exact ⟨[], c :: t, rfl, trivial, .inr ⟨c, t, rfl, hquote, hend⟩⟩
      · obtain ⟨ps, last, rfl, hsplits, hlast⟩ := ih rest.length (hlength ▸ hshort) rest rfl
        exact ⟨p :: ps, last, by rw [htext, textOf_cons, List.append_assoc], ⟨hstands, hsplits⟩, hlast⟩

/-! ### The scan between pieces -/

/-- Between two pieces a scan goes on with the rest of the text as in code. -/
structure Scan.Between (s : Scan) (rest : List Char) : Prop where
  next : ∀ c ∈ rest.head?, s.step c = s.code c
  outside : ∀ quote opened escaped, s.mode ≠ .literal quote opened escaped

/-- A scan reads pieces in front of the rest of a text, and counts their lines. -/
structure Reads (ps : List Piece) (rest : List Char) (s t : Scan) : Prop where
  run : s.run (textOf ps) = .ok t
  between : t.Between rest
  line : t.line = s.line + (textOf ps).count '\n'

variable {σ τ υ : Scan}

/-- In code a scan is between pieces. -/
theorem between_of_code (h : σ.mode = .code) (rest : List Char) : σ.Between rest where
  next c _ := by rw [Scan.step, h]
  outside quote opened escaped := by simp [h]

/-- Nothing is read without a piece. -/
theorem Reads.nil (h : σ.Between rest) : Reads [] rest σ σ := ⟨rfl, h, rfl⟩

/-- Pieces are read, and then others. -/
theorem Reads.append (h : Reads ps (textOf qs ++ rest) σ τ) (h' : Reads qs rest τ υ) :
    Reads (ps ++ qs) rest σ υ where
  run := by
    rw [textOf_append, Scan.run_append, h.run]
    exact h'.run
  between := h'.between
  line := by rw [h'.line, h.line, textOf_append, List.count_append, Nat.add_assoc]

/-- A scan over a text with a first character. -/
theorem Scan.run_cons (s : Scan) (c : Char) (text : List Char) :
    s.run (c :: text) = (s.step c).bind fun t => t.run text := rfl

/-- The lines of a text are counted from its first character on. -/
theorem lineAfter_add_count (line : Nat) (c : Char) (s : List Char) :
    lineAfter line c + s.count '\n' = line + (c :: s).count '\n' := by
  by_cases hc : c = '\n'
  · subst hc
    rw [lineAfter, if_pos rfl, List.count_cons_self]
    omega
  · rw [lineAfter, if_neg hc, List.count_cons_of_ne hc]

/-! ### Comments -/

/-- The characters of a line comment are passed over. -/
theorem run_lineComment (hmode : σ.mode = .lineComment) (hbody : '\n' ∉ body) :
    σ.run body = .ok σ := by
  induction body with
  | nil => rfl
  | cons c body ih =>
    rw [List.mem_cons, not_or] at hbody
    have hstep : σ.step c = .ok σ := by
      rw [Scan.step, hmode]
      exact if_neg (Ne.symm hbody.1)
    rw [Scan.run_cons, hstep]
    exact ih hbody.2

/-- The characters of a block comment are passed over, and its lines are counted. -/
theorem run_blockComment {star : Bool} (hmode : σ.mode = .blockComment star)
    (hbody : ¬HoldsEnd body) (hstar : star = true → ∀ c ∈ body.head?, c ≠ '/') :
    ∃ last, σ.run body = .ok { σ with
      mode := .blockComment last, line := σ.line + body.count '\n' } := by
  induction body generalizing σ star with
  | nil =>
    refine ⟨star, ?_⟩
    obtain ⟨mode, stack, line⟩ := σ
    cases hmode
    rfl
  | cons c body ih =>
    have hstep : σ.step c = .ok { σ with
        mode := .blockComment (c == '*'), line := lineAfter σ.line c } := by
      rw [Scan.step, hmode]
      refine if_neg ?_
      -- only a slash behind a star ends the comment
      rintro hclose
      rw [Bool.and_eq_true, beq_iff_eq] at hclose
      exact hstar hclose.1 c rfl hclose.2
    obtain ⟨last, hrun⟩ := ih (σ := { σ with
        mode := .blockComment (c == '*'), line := lineAfter σ.line c }) rfl
      (fun hmore => hbody (List.infix_cons_iff.mpr (.inr hmore))) (by
        intro hc d hd hslash
        obtain rfl : c = '*' := by simpa using hc
        obtain rfl := hslash
        obtain ⟨t, rfl⟩ := List.head?_eq_some_iff.mp hd
        exact hbody ⟨[], t, rfl⟩)
    refine ⟨last, ?_⟩
    rw [Scan.run_cons, hstep, ← lineAfter_add_count]
    exact hrun

/-! ### Literals -/

/-- A quote is no backslash, no slash and no end of a line. -/
theorem ne_of_isQuote (h : isQuote c = true) : c ≠ '\\' ∧ c ≠ '/' ∧ c ≠ '\n' := by
  simp only [isQuote, Bool.or_eq_true, beq_iff_eq] at h
  rcases h with (rfl | rfl) | rfl <;> decide

/-- A quote opens a literal. -/
theorem code_quote (h : isQuote c = true) :
    σ.code c = .ok { σ with mode := .literal c σ.line false } := by
  obtain ⟨-, hslash, hline⟩ := ne_of_isQuote h
  simp [Scan.code, hslash, hline, h]

/-- The characters of a literal are passed over, and its lines are counted. -/
theorem run_literal {opened : Nat} (hbody : LiteralBody quote body)
    (hmode : σ.mode = .literal quote opened false) :
    σ.run body = .ok { σ with line := σ.line + body.count '\n' } := by
  induction hbody generalizing σ with
  | nil => rfl
  | escaped c _ ih =>
    obtain ⟨mode, stack, line⟩ := σ
    cases hmode
    rw [Scan.run_cons]
    show Scan.run ⟨.literal quote opened false, stack, lineAfter line c⟩ _ = _
    rw [ih rfl, lineAfter_add_count, List.count_cons_of_ne (a := '\n') (b := '\\') (by decide)]
  | @plain c s hescape hother hline _ ih =>
    have hstep : σ.step c = .ok { σ with line := lineAfter σ.line c } := by
      rw [Scan.step, hmode]
      simp only [hescape, hother, if_false]
      exact if_neg fun h => h.2 (hline h.1)
    rw [Scan.run_cons, hstep, ← lineAfter_add_count]
    exact ih (σ := { σ with line := lineAfter σ.line c }) hmode

/-- A literal that is not terminated is found at the end of its line or of the text. -/
theorem finish_of_unterminated {opened : Nat} (hend : ¬Terminated quote s)
    (hmode : σ.mode = .literal quote opened false) :
    (σ.run s).bind Scan.finish = .error (.unterminated opened) := by
  -- a backslash takes two characters at once
  induction hlength : s.length using Nat.strongRecOn generalizing s σ with
  | _ n ih =>
    cases s with
    | nil =>
      show σ.finish = _
      rw [Scan.finish, hmode]
    | cons c s =>
      rw [Scan.run_cons]
      by_cases hescape : c = '\\'
      · subst hescape
        have hstep : σ.step '\\' = .ok { σ with mode := .literal quote opened true } := by
          rw [Scan.step, hmode]
          rfl
        rw [hstep]
        cases s with
        | nil => rfl
        | cons d s =>
          refine ih s.length (by rw [← hlength, List.length_cons, List.length_cons]; omega)
            (σ := ⟨.literal quote opened false, σ.stack, lineAfter σ.line d⟩) ?_ rfl rfl
          rintro ⟨body, rest, hbody, rfl⟩
          exact hend ⟨'\\' :: d :: body, rest, .escaped d hbody, rfl⟩
      · have hother : c ≠ quote := by
          rintro rfl
          exact hend ⟨[], s, .nil, rfl⟩
        by_cases hline : c = '\n' ∧ quote ≠ '\x60'
        · have hstep : σ.step c = .error (.unterminated opened) := by
            rw [Scan.step, hmode]
            simp only [hescape, hother, if_false]
            exact if_pos hline
          rw [hstep]
          rfl
        · have hstep : σ.step c = .ok { σ with line := lineAfter σ.line c } := by
            rw [Scan.step, hmode]
            simp only [hescape, hother, if_false]
            exact if_neg hline
          rw [hstep]
          refine ih s.length (by rw [← hlength]; simp)
            (σ := { σ with line := lineAfter σ.line c }) ?_ hmode rfl
          rintro ⟨body, rest, hbody, rfl⟩
          refine hend ⟨c :: body, rest, .plain hescape hother (fun hc => ?_) hbody, rfl⟩
          by_contra hquote
          exact hline ⟨hc, hquote⟩

/-! ### Brackets -/

/-- The bracket that a piece is. -/
def Piece.bracket? : Piece → Option Char
  | other c => if isOpener c || (partner? c).isSome then some c else none
  | _ => none

/-- The brackets among pieces, in order. -/
def brackets (pieces : List Piece) : List Char := pieces.filterMap Piece.bracket?

@[simp] theorem brackets_append : brackets (ps ++ qs) = brackets ps ++ brackets qs :=
  List.filterMap_append

/-- A single character that is no bracket changes the line at most. -/
theorem reads_other (hb : σ.Between (c :: rest)) (h : (Piece.other c).Stands rest)
    (hquiet : (Piece.other c).bracket? = none) :
    ∃ τ, Reads [.other c] rest σ τ ∧ τ.stack = σ.stack := by
  have hbracket : isOpener c = false ∧ partner? c = none := by
    simpa [Piece.bracket?] using hquiet
  have hrun {τ : Scan} (hτ : σ.code c = .ok τ) : σ.run (textOf [.other c]) = .ok τ := by
    show (σ.step c).bind _ = _
    rw [hb.next c rfl, hτ]
    rfl
  by_cases hline : c = '\n'
  · subst hline
    exact ⟨{ σ with mode := .code, line := σ.line + 1 }, ⟨hrun rfl, between_of_code rfl rest, rfl⟩,
      rfl⟩
  · by_cases hslash : c = '/'
    · subst hslash
      refine ⟨{ σ with mode := .slash }, ⟨hrun rfl, ⟨?_, by simp⟩, rfl⟩, rfl⟩
      -- the slash is alone, so that the next character begins no comment
      intro d hd
      obtain ⟨hd, hd'⟩ := h.2 rfl d hd
      simp only [Scan.step, if_neg hd, if_neg hd']
    · refine ⟨{ σ with mode := .code }, ⟨hrun ?_, between_of_code rfl rest, ?_⟩, rfl⟩
      · simp [Scan.code, hline, hslash, h.1, hbracket]
      · simp [Piece.text, hline]

/-- After a slash the next character decides which kind of comment begins. -/
theorem run_slash {d : Char} (hb : σ.Between ('/' :: rest)) :
    σ.run ('/' :: d :: s) = (Scan.step { σ with mode := .slash } d).bind fun τ => τ.run s := by
  rw [Scan.run_cons, hb.next '/' rfl]
  rfl

/-- **A piece that is no bracket** leaves the open brackets as they are. -/
theorem reads_quiet (hb : σ.Between (p.text ++ rest)) (h : p.Stands rest)
    (hquiet : p.bracket? = none) : ∃ τ, Reads [p] rest σ τ ∧ τ.stack = σ.stack := by
  have htext : textOf [p] = p.text := List.append_nil _
  cases p with
  | other c => exact reads_other hb h hquiet
  | lineComment body =>
    refine ⟨{ σ with mode := .lineComment }, ⟨?_, ⟨?_, by simp⟩, ?_⟩, rfl⟩
    · rw [htext]
      exact (run_slash hb).trans (run_lineComment rfl h.1)
    · intro c hc
      obtain rfl := h.2 c hc
      rfl
    · simp [Piece.text, List.count_eq_zero.mpr h.1]
  | blockComment body =>
    obtain ⟨last, hrun⟩ := run_blockComment (σ := { σ with mode := .blockComment false }) rfl h
      (by simp)
    refine ⟨{ σ with mode := .code, line := σ.line + body.count '\n' },
      ⟨?_, between_of_code rfl rest, ?_⟩, rfl⟩
    · rw [htext]
      refine (run_slash hb).trans ?_
      show Scan.run { σ with mode := .blockComment false } (body ++ ['*', '/']) = _
      rw [Scan.run_append, hrun]
      cases last <;> rfl
    · simp [Piece.text]
  | openComment body =>
    -- such a comment is the last piece
    obtain ⟨hbody, rfl⟩ := h
    obtain ⟨last, hrun⟩ := run_blockComment (σ := { σ with mode := .blockComment false }) rfl hbody
      (by simp)
    refine ⟨{ σ with mode := .blockComment last, line := σ.line + body.count '\n' },
      ⟨?_, ⟨by simp, by simp⟩, ?_⟩, rfl⟩
    · rw [htext]
      exact (run_slash hb).trans hrun
    · simp [Piece.text]
  | literal quote body =>
    -- the quote opens the literal, its body stays inside, and the same quote closes it
    obtain ⟨hquote, hbody⟩ := h
    obtain ⟨hescape, -, hline⟩ := ne_of_isQuote hquote
    have hrun := run_literal (σ := { σ with mode := .literal quote σ.line false }) hbody rfl
    refine ⟨{ σ with mode := .code, line := σ.line + body.count '\n' },
      ⟨?_, between_of_code rfl rest, ?_⟩, rfl⟩
    · rw [htext, Piece.text, Scan.run_cons, hb.next quote rfl, code_quote hquote]
      show Scan.run { σ with mode := .literal quote σ.line false } (body ++ [quote]) = _
      rw [Scan.run_append, hrun]
      show (Scan.step _ quote).bind _ = _
      simp only [Scan.step, if_neg hescape, if_pos]
      rfl
    · simp [Piece.text, hline]

/-- **An opening bracket** is put on top of the open ones, with its line. -/
theorem reads_opener (hb : σ.Between (c :: rest)) (ho : isOpener c = true) :
    Reads [.other c] rest σ { σ with mode := .code, stack := (c, σ.line) :: σ.stack } where
  run := by
    show (σ.step c).bind _ = _
    rw [hb.next c rfl]
    simp only [isOpener, Bool.or_eq_true, beq_iff_eq] at ho
    rcases ho with (rfl | rfl) | rfl <;> rfl
  between := between_of_code rfl rest
  line := by
    simp only [isOpener, Bool.or_eq_true, beq_iff_eq] at ho
    rcases ho with (rfl | rfl) | rfl <;> rfl

/-- A closing bracket is one of three. -/
theorem closer_cases {opener : Char} (h : partner? c = some opener) : c = ')' ∨ c = ']' ∨ c = '}' := by
  by_contra hnone
  push Not at hnone
  simp [partner?, hnone] at h

/-- **A closing bracket** takes its partner from the top of the open ones. -/
theorem reads_closer {opener : Char} {line : Nat} {stack : List (Char × Nat)}
    (hb : σ.Between (c :: rest)) (hc : partner? c = some opener)
    (hstack : σ.stack = (opener, line) :: stack) :
    Reads [.other c] rest σ { σ with mode := .code, stack } where
  run := by
    show (σ.step c).bind _ = _
    rw [hb.next c rfl]
    rcases closer_cases hc with rfl | rfl | rfl <;>
      (cases hc; simp [Scan.code, isQuote, isOpener, partner?, hstack]; rfl)
  between := between_of_code rfl rest
  line := by rcases closer_cases hc with rfl | rfl | rfl <;> rfl

/-- **A closing bracket whose partner is not on top** is found where it stands. -/
theorem run_unexpected {opener : Char} (hb : σ.Between (c :: rest)) (hc : partner? c = some opener)
    (hstack : ∀ top ∈ σ.stack.head?, top.1 ≠ opener) :
    σ.run (c :: rest) = .error (.unexpected c σ.line) := by
  rw [Scan.run_cons, hb.next c rfl]
  have hcode : σ.code c = .error (.unexpected c σ.line) := by
    cases htop : σ.stack with
    | nil =>
      rcases closer_cases hc with rfl | rfl | rfl <;>
        simp [Scan.code, isQuote, isOpener, partner?, htop]
    | cons top stack =>
      have hne : top.1 ≠ opener := hstack top (by rw [htop]; rfl)
      rcases closer_cases hc with rfl | rfl | rfl <;>
        (cases hc; simp [Scan.code, isQuote, isOpener, partner?, htop, hne])
  rw [hcode]
  rfl

end ApiNodes.Typescript
