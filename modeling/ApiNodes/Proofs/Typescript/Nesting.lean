import ApiNodes.Proofs.Typescript.Pieces
import Mathlib.Data.List.Induction

namespace ApiNodes.Typescript

/-!
# Nesting

The scan of brackets, compared with a grammar.  `Nested` generates the words of brackets that
nest, and `Pending` says which brackets a row of pieces leaves open.  A text is at fault in one of
three ways, each at one place: `FirstFault`.

* `run_pending` — the scan keeps the brackets that are pending, with their lines;
* `pending_or_unexpected` — pieces have pending brackets, up to a closing one without its partner;
* `imbalance?_iff` — a text passes exactly when it is cut into pieces whose brackets nest, and what
  is found otherwise is its first fault.
-/

/-! ### Nested words -/

/-- The words of brackets that nest. -/
inductive Nested : List Char → Prop
  | nil : Nested []
  | group {opener closer : Char} {u v : List Char} (h : partner? closer = some opener)
    (hu : Nested u) (hv : Nested v) : Nested (opener :: (u ++ closer :: v))

variable {u v s rest text : List Char} {c opener closer : Char} {line : Nat} {p : Piece}
  {ps qs : List Piece} {stack : List (Char × Nat)} {σ τ : Scan}

/-- Words that nest, one after the other. -/
theorem Nested.append (hu : Nested u) (hv : Nested v) : Nested (u ++ v) := by
  induction hu with
  | nil => exact hv
  | group h ha _ _ ih =>
    rw [List.cons_append, List.append_assoc, List.cons_append]
    exact .group h ha ih

/-- The partner of a closing bracket opens. -/
theorem isOpener_of_partner? (h : partner? closer = some opener) : isOpener opener = true := by
  rcases closer_cases h with rfl | rfl | rfl <;> (cases h; rfl)

/-! ### Pending brackets -/

/-- The line after pieces. -/
def lineOf (pieces : List Piece) : Nat := 1 + (textOf pieces).count '\n'

/-- The brackets that pieces leave open, the innermost first, each with the line it stands in:
    between them, and after the last one, the brackets nest. -/
inductive Pending : List Piece → List (Char × Nat) → Prop
  | nested {ps : List Piece} (h : Nested (brackets ps)) : Pending ps []
  | opened {ps qs : List Piece} {stack : List (Char × Nat)} {opener : Char} (h : Pending ps stack)
    (ho : isOpener opener = true) (hq : Nested (brackets qs)) :
    Pending (ps ++ .other opener :: qs) ((opener, lineOf ps) :: stack)

/-- The pieces that are brackets. -/
theorem bracket?_eq_some_iff :
    p.bracket? = some c ↔ p = .other c ∧ (isOpener c = true ∨ (partner? c).isSome) := by
  constructor
  · intro h
    cases p with
    | other d =>
      simp only [Piece.bracket?, Bool.or_eq_true, Option.ite_none_right_eq_some,
        Option.some.injEq] at h
      exact ⟨congrArg Piece.other h.2, h.2 ▸ h.1⟩
    | _ => cases h
  · rintro ⟨rfl, hc⟩
    exact if_pos (Bool.or_eq_true_iff.mpr hc)

/-- An opening bracket is one. -/
theorem bracket?_of_isOpener (h : isOpener c = true) : (Piece.other c).bracket? = some c :=
  bracket?_eq_some_iff.mpr ⟨rfl, .inl h⟩

/-- A closing bracket is one. -/
theorem bracket?_of_partner? (h : partner? c = some opener) :
    (Piece.other c).bracket? = some c :=
  bracket?_eq_some_iff.mpr ⟨rfl, .inr (by rw [h]; rfl)⟩

/-- Where pieces that nest come after others, the same brackets are left open. -/
theorem Pending.append (h : Pending ps stack) (hq : Nested (brackets qs)) :
    Pending (ps ++ qs) stack := by
  cases h with
  | nested hp => exact .nested (by rw [brackets_append]; exact hp.append hq)
  | opened h ho hp =>
    rw [List.append_assoc, List.cons_append]
    exact .opened h ho (by rw [brackets_append]; exact hp.append hq)

/-- A closing bracket takes its partner away. -/
theorem Pending.close (h : Pending ps ((opener, line) :: stack))
    (hc : partner? closer = some opener) : Pending (ps ++ [.other closer]) stack := by
  cases h with
  | @opened before between _ _ h ho hq =>
    rw [List.append_assoc, List.cons_append]
    refine h.append ?_
    have hword : brackets (.other opener :: (between ++ [.other closer])) =
        opener :: (brackets between ++ closer :: []) := by
      simp [brackets, bracket?_of_isOpener ho, bracket?_of_partner? hc]
    rw [hword]
    exact .group hc hq .nil

/-- A closing bracket whose partner is not the innermost open one. -/
structure Unexpected (stack : List (Char × Nat)) (c : Char) : Prop where
  closes : (partner? c).isSome
  apart : ∀ top ∈ stack.head?, partner? c ≠ some top.1

/-- **Pieces leave brackets open**, unless a closing one comes without its partner. -/
theorem pending_or_unexpected (ps : List Piece) :
    (∃ stack, Pending ps stack) ∨ ∃ before c after stack, ps = before ++ .other c :: after ∧
      Pending before stack ∧ Unexpected stack c := by
  induction ps using List.reverseRecOn with
  | nil => exact .inl ⟨[], .nested .nil⟩
  | append_singleton ps p ih =>
    rcases ih with ⟨stack, h⟩ | ⟨before, c, after, stack, rfl, h, hc⟩
    · -- the last piece is no bracket, or opens, or closes the innermost open one, or is at fault
      cases hp : p.bracket? with
      | none =>
        have hquiet : brackets [p] = [] := by simp [brackets, hp]
        exact .inl ⟨stack, h.append (hquiet ▸ .nil)⟩
      | some b =>
        obtain ⟨rfl, hc⟩ := bracket?_eq_some_iff.mp hp
        by_cases ho : isOpener b = true
        · exact .inl ⟨_, .opened h ho .nil⟩
        · obtain ⟨opener, hopener⟩ := Option.isSome_iff_exists.mp (hc.resolve_left ho)
          by_cases htop : ∃ line rest, stack = (opener, line) :: rest
          · obtain ⟨line, rest, rfl⟩ := htop
            exact .inl ⟨rest, h.close hopener⟩
          · refine .inr ⟨ps, b, [], stack, rfl, h, hc.resolve_left ho, ?_⟩
            rintro ⟨o, line⟩ hhead heq
            obtain ⟨rest, rfl⟩ := List.head?_eq_some_iff.mp hhead
            rw [hopener, Option.some.injEq] at heq
            exact htop ⟨line, rest, by rw [heq]⟩
    · exact .inr ⟨before, c, after ++ [p], stack, by simp, h, hc⟩

/-! ### The scan of nested words -/

/-- The pieces around a bracket of a word. -/
theorem exists_bracket (h : brackets ps = c :: u) :
    ∃ quiet after, ps = quiet ++ .other c :: after ∧ brackets quiet = [] ∧ brackets after = u := by
  obtain ⟨quiet, p, after, rfl, hquiet, hp, hafter⟩ := List.filterMap_eq_cons_iff.mp h
  obtain ⟨rfl, -⟩ := bracket?_eq_some_iff.mp hp
  exact ⟨quiet, after, rfl, List.filterMap_eq_nil_iff.mpr hquiet, hafter⟩

/-- Pieces without brackets leave the open ones as they are. -/
theorem reads_of_quiet (h : brackets ps = []) (hs : Splits ps rest)
    (hb : σ.Between (textOf ps ++ rest)) : ∃ τ, Reads ps rest σ τ ∧ τ.stack = σ.stack := by
  induction ps generalizing σ with
  | nil => exact ⟨σ, .nil hb, rfl⟩
  | cons p ps ih =>
    rw [textOf_cons, List.append_assoc] at hb
    have hquiet := List.filterMap_eq_nil_iff.mp h
    obtain ⟨τ, hτ, hstack⟩ := reads_quiet hb hs.1 (hquiet p List.mem_cons_self)
    obtain ⟨υ, hυ, hstack'⟩ := ih
      (List.filterMap_eq_nil_iff.mpr fun q hq => hquiet q (List.mem_cons_of_mem p hq)) hs.2 hτ.between
    exact ⟨υ, hτ.append hυ, hstack'.trans hstack⟩

/-- **Pieces whose brackets nest** leave the open ones as they are. -/
theorem reads_of_nested (h : Nested u) (hu : brackets ps = u) (hs : Splits ps rest)
    (hb : σ.Between (textOf ps ++ rest)) : ∃ τ, Reads ps rest σ τ ∧ τ.stack = σ.stack := by
  induction h generalizing ps rest σ with
  | nil => exact reads_of_quiet hu hs hb
  | @group opener closer u v hc _ _ ihu ihv =>
    -- the pieces are those before the opening bracket, those inside, those before the closing one
    -- that are none, and those after it
    obtain ⟨before, inside, rfl, hbefore, hinside⟩ := exists_bracket hu
    obtain ⟨first, second, rfl, hfirst, hsecond⟩ := List.filterMap_eq_append_iff.mp hinside
    obtain ⟨quiet, after, rfl, hquiet, hafter⟩ := exists_bracket hsecond
    have hgroup : before ++ .other opener :: (first ++ (quiet ++ .other closer :: after)) =
        before ++ ([.other opener] ++ ((first ++ quiet) ++ ([.other closer] ++ after))) := by simp
    rw [hgroup] at hs hb ⊢
    simp only [splits_append] at hs
    obtain ⟨hs₁, -, ⟨hs₃, hs₃'⟩, -, hs₅⟩ := hs
    rw [textOf_append, List.append_assoc] at hb
    obtain ⟨σ₁, h₁, hstack₁⟩ := reads_of_quiet hbefore hs₁ hb
    have h₂ := reads_opener (by simpa [Piece.text] using h₁.between) (isOpener_of_partner? hc)
    have hinside : brackets (first ++ quiet) = u := by
      rw [brackets_append, hquiet, List.append_nil]
      exact hfirst
    obtain ⟨σ₃, h₃, hstack₃⟩ := ihu hinside
      (splits_append.mpr ⟨hs₃, hs₃'⟩) (by simpa [Piece.text] using h₂.between)
    have h₄ := reads_closer (by simpa [Piece.text] using h₃.between) hc hstack₃
    obtain ⟨σ₅, h₅, hstack₅⟩ := ihv hafter hs₅ (by simpa using h₄.between)
    refine ⟨σ₅, h₁.append (Reads.append ?_ (h₃.append (Reads.append ?_ h₅))), ?_⟩
    · simpa [Piece.text] using h₂
    · simpa using h₄
    · rw [hstack₅, hstack₁]

/-- **The scan keeps the brackets that are pending**, with their lines. -/
theorem run_pending (h : Pending ps stack) (hs : Splits ps rest) :
    ∃ τ, Reads ps rest {} τ ∧ τ.stack = stack := by
  induction h generalizing rest with
  | nested h => exact reads_of_nested h rfl hs (between_of_code rfl _)
  | @opened ps qs stack opener _ ho hq ih =>
    rw [splits_append] at hs
    obtain ⟨σ₁, h₁, hstack₁⟩ := ih hs.1
    have h₂ := reads_opener (by simpa [Piece.text] using h₁.between) ho
    obtain ⟨σ₃, h₃, hstack₃⟩ := reads_of_nested hq rfl hs.2.2 h₂.between
    refine ⟨σ₃, h₁.append (h₂.append h₃), ?_⟩
    rw [hstack₃, hstack₁, h₁.line]
    rfl

/-! ### Faults -/

/-- The first fault of a text: a literal that is not terminated, where it begins; a closing bracket
    that is not expected; or, at the end, the innermost bracket that is open.  What stands before it
    is cut into pieces and is not at fault. -/
inductive FirstFault : List Char → Imbalance → Prop
  | unterminated {ps : List Piece} {stack : List (Char × Nat)} {quote : Char} {s : List Char}
    (hs : Splits ps (quote :: s)) (h : Pending ps stack) (hquote : isQuote quote = true)
    (hend : ¬Terminated quote s) :
    FirstFault (textOf ps ++ quote :: s) (.unterminated (lineOf ps))
  | unexpected {ps : List Piece} {stack : List (Char × Nat)} {c : Char} {s : List Char}
    (hs : Splits ps (c :: s)) (h : Pending ps stack) (hc : Unexpected stack c) :
    FirstFault (textOf ps ++ c :: s) (.unexpected c (lineOf ps))
  | unclosed {ps : List Piece} {stack : List (Char × Nat)} {opener : Char} {line : Nat}
    (hs : Splits ps []) (h : Pending ps ((opener, line) :: stack)) :
    FirstFault (textOf ps) (.unclosed opener line)

/-- What is found in a text by its scan. -/
theorem imbalance?_of_error {e : Imbalance} (h : (Scan.run {} text).bind Scan.finish = .error e) :
    imbalance? text = some e := by
  rw [imbalance?, h]

/-- A text that begins with pieces is scanned by them first. -/
theorem run_textOf_append {s : List Char} (h : Reads ps s {} τ) :
    Scan.run {} (textOf ps ++ s) = τ.run s := by
  rw [Scan.run_append, h.run]
  rfl

/-- At the end of its pieces a text is at fault when brackets are open. -/
theorem finish_of_reads (h : Reads ps [] {} τ) :
    (Scan.run {} (textOf ps)).bind Scan.finish =
      match τ.stack with
      | [] => .ok ()
      | (opener, line) :: _ => .error (.unclosed opener line) := by
  rw [h.run]
  show τ.finish = _
  have houtside := h.between.outside
  unfold Scan.finish
  split
  · rename_i hmode
    exact absurd hmode (houtside _ _ _)
  · rfl

/-- **A text whose brackets nest** passes. -/
theorem imbalance?_of_nested (hs : Splits ps []) (h : Nested (brackets ps)) :
    imbalance? (textOf ps) = none := by
  obtain ⟨τ, hτ, hstack⟩ := run_pending (.nested h) hs
  rw [imbalance?, finish_of_reads hτ, hstack]

/-- **The first fault of a text** is found. -/
theorem imbalance?_of_fault {e : Imbalance} (h : FirstFault text e) : imbalance? text = some e := by
  apply imbalance?_of_error
  cases h with
  | @unterminated ps stack quote s hs h hquote hend =>
    obtain ⟨τ, hτ, -⟩ := run_pending h hs
    rw [run_textOf_append hτ, Scan.run_cons, hτ.between.next quote rfl, code_quote hquote]
    refine (finish_of_unterminated hend rfl).trans ?_
    rw [hτ.line]
    rfl
  | @unexpected ps stack c s hs h hc =>
    obtain ⟨τ, hτ, rfl⟩ := run_pending h hs
    obtain ⟨opener, hopener⟩ := Option.isSome_iff_exists.mp hc.closes
    have hrun : τ.run (c :: s) = .error (.unexpected c τ.line) :=
      run_unexpected hτ.between hopener fun top htop heq =>
        hc.apart top htop (by rw [hopener, heq])
    rw [run_textOf_append hτ, hrun, hτ.line]
    rfl
  | unclosed hs h =>
    obtain ⟨τ, hτ, hstack⟩ := run_pending h hs
    rw [finish_of_reads hτ, hstack]

/-- A text is cut into pieces whose brackets nest, or it has a first fault. -/
theorem nested_or_fault (text : List Char) :
    (∃ ps, text = textOf ps ∧ Splits ps [] ∧ Nested (brackets ps)) ∨ ∃ e, FirstFault text e := by
  obtain ⟨ps, rest, rfl, hs, hrest⟩ := exists_splits text
  rcases pending_or_unexpected ps with ⟨stack, h⟩ | ⟨before, c, after, stack, rfl, h, hc⟩
  · rcases hrest with rfl | ⟨quote, s, rfl, hquote, hend⟩
    · rw [List.append_nil]
      cases h with
      | nested h => exact .inl ⟨ps, rfl, hs, h⟩
      | opened h ho hq => exact .inr ⟨_, .unclosed hs (.opened h ho hq)⟩
    · exact .inr ⟨_, .unterminated hs h hquote hend⟩
  · rw [textOf_append, List.append_assoc]
    rw [splits_append] at hs
    exact .inr ⟨_, .unexpected hs.1 h hc⟩

/-- **Brackets are checked by the grammar.**  A text passes exactly when it is cut, from left to
    right, into comments, literals and single characters whose brackets nest; and what is found in
    any other text is its first fault, in the line where it stands. -/
theorem imbalance?_iff (text : List Char) :
    (imbalance? text = none ↔
      ∃ ps, text = textOf ps ∧ Splits ps [] ∧ Nested (brackets ps)) ∧
    ∀ e, imbalance? text = some e ↔ FirstFault text e := by
  have hnested : (∃ ps, text = textOf ps ∧ Splits ps [] ∧ Nested (brackets ps)) →
      imbalance? text = none := by
    rintro ⟨ps, rfl, hs, h⟩
    exact imbalance?_of_nested hs h
  rcases nested_or_fault text with hnest | ⟨e, he⟩
  · have hnone := hnested hnest
    refine ⟨⟨fun _ => hnest, hnested⟩, fun e => ⟨fun h => ?_, imbalance?_of_fault⟩⟩
    rw [hnone] at h
    cases h
  · have hsome := imbalance?_of_fault he
    refine ⟨⟨fun h => ?_, hnested⟩, fun e' => ⟨fun h => ?_, imbalance?_of_fault⟩⟩
    · rw [hsome] at h
      cases h
    · rw [hsome, Option.some.injEq] at h
      exact h ▸ he

-- the bracket in the comment and the one in the literal are passed over
example : imbalance? "f(\x22)\x22, [ // ]\n  \x7b".toList = some (.unclosed '\x7b' 2) := by decide

end ApiNodes.Typescript
