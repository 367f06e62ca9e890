import ApiNodes.Proofs.Name.Closed
import ApiNodes.Proofs.Typescript.Description
import ApiNodes.Proofs.Typescript.Passage
import ApiNodes.Typescript.Literal

namespace ApiNodes.Typescript

open Name (isWordy Wordy)

/-!
# Kinds of text in holes

What may be written into a hole depends on where the hole stands: a name fits anywhere, a
line of prose only into a literal and escaped, and a remark into a block comment.
`TextKind.after` and `TextKind.afterEscaped` compute the spot after a text of a kind, and
`TextKind.passes` and `TextKind.passes_escaped` say that every text of the kind passes there.
-/

/-- Prose in one line that opens no brace. -/
def Prose (s : List Char) : Prop := '\n' ∉ s ∧ '{' ∉ s

instance (s : List Char) : Decidable (Prose s) := inferInstanceAs (Decidable (_ ∧ _))

/-- Text that neither ends a block comment nor begins a placeholder. -/
structure Remark (s : List Char) : Prop where
  noEnd : ¬"*/".toList <:+: s
  noHole : ¬"\x7b\x7b".toList <:+: s
  noStatement : ¬"\x7b%".toList <:+: s

/-- What is known of a text that is written into a hole. -/
inductive TextKind
  | word
  | prose
  /-- Prose that is escaped already. -/
  | escaped
  /-- The body of a template literal. -/
  | path
  /-- Code in which the brackets are right. -/
  | code
  | remark
  deriving DecidableEq, Repr

/-- A text is of a kind. -/
def TextKind.Holds : TextKind → List Char → Prop
  | word, s => Wordy s
  | prose, s => Prose s
  | escaped, s => ∃ t, Prose t ∧ s = escapeChars t
  | path, s => Passes ⟨.literal '\x60', false⟩ s ⟨.literal '\x60', false⟩
  | code, s => Passes .code s .code
  | remark, s => Remark s

/-- The spot after a text of a kind. -/
def TextKind.after (k : TextKind) (p : Spot) : Option Spot :=
  if p.brace then none
  else
    match p.region with
    | .code => if k = word ∨ k = code then some p else none
    | .slash => none
    | .lineComment => if k = word then some p else none
    | .blockComment star =>
      match k with
      | word => some ⟨.blockComment none, false⟩
      | remark => if star = some false then some ⟨.blockComment none, true⟩ else none
      | _ => none
    | .literal quote =>
      match k with
      | word | escaped => if isQuote quote then some p else none
      | path => if quote = '\x60' then some p else none
      | _ => none

/-- The spot after the escaped form of a text of a kind. -/
def TextKind.afterEscaped (k : TextKind) (p : Spot) : Option Spot :=
  match k with
  | word => word.after p
  | prose => escaped.after p
  | _ => none

/-! ### Labels and names -/

/-- A character of names is not escaped. -/
theorem isSpecial_of_isWordy {c : Char} (hc : isWordy c = true) : isSpecial c = false := by
  have hne (d : Char) (hd : isWordy d = false) : c ≠ d := Name.ne_of_isWordy hc hd
  simp [isSpecial, hne '\\' (by decide), hne '\x27' (by decide), hne '\x22' (by decide),
    hne '\x60' (by decide)]

/-- Where nothing is to be escaped the escaped form is the text. -/
theorem escapeChars_eq_self {s : List Char} (hs : ∀ c ∈ s, isSpecial c = false) :
    escapeChars s = s := by
  have hplain : ∀ c ∈ s, (if isSpecial c then ['\\', c] else [c]) = [c] := by
    intro c hc
    simp [hs c hc]
  rw [escapeChars, List.flatMap_def, List.map_congr_left hplain, ← List.flatMap_def,
    List.flatMap_singleton']

/-- A character of names changes no region. -/
theorem step_of_isWordy {c : Char} (hc : isWordy c = true) {region : Region}
    (h : region = .code ∨ region = .lineComment ∨ ∃ q, region = .literal q ∧ isQuote q = true) :
    (⟨region, false⟩ : Spot).step c = some ⟨region, false⟩ := by
  have hne (d : Char) (hd : isWordy d = false) : c ≠ d := Name.ne_of_isWordy hc hd
  have hbrace : (c == '{') = false := by simpa using hne '{' (by decide)
  have hline := hne '\n' (by decide)
  rw [Spot.step, hbrace]
  suffices hstep : region.step c = some region by simp [hstep]
  rcases h with rfl | rfl | ⟨q, rfl, hq⟩
  · have hquote : isQuote c = false := by
      simp [isQuote, hne '\x27' (by decide), hne '\x22' (by decide), hne '\x60' (by decide)]
    have hopener : isOpener c = false := by
      simp [isOpener, hne '(' (by decide), hne '[' (by decide), hne '{' (by decide)]
    have hcloser : partner? c = none := by
      simp [partner?, hne ')' (by decide), hne ']' (by decide), hne '}' (by decide)]
    simp [Region.step, Region.afterCode, hne '/' (by decide), hquote, hopener, hcloser]
  · simp [Region.step, hline]
  · have hcq : c ≠ q := by
      simp only [isQuote, Bool.or_eq_true, beq_iff_eq] at hq
      rcases hq with (rfl | rfl) | rfl <;> exact hne _ (by decide)
    simp [Region.step, hne '\\' (by decide), hcq, hline]

/-- In a block comment less is known after a name: it may be empty. -/
theorem Region.Holds.forget {star : Option Bool} {m : Mode} (h : (blockComment star).Holds m) :
    (blockComment none).Holds m := by
  obtain ⟨b, hb, -⟩ := h
  exact ⟨b, hb, by simp⟩

/-- A name in a block comment. -/
theorem passes_blockComment_of_wordy {s : List Char} (hs : Wordy s) (star : Option Bool) :
    Passes ⟨.blockComment star, false⟩ s ⟨.blockComment none, false⟩ := by
  have hforget : ∀ star' w, Spot.Holds ⟨.blockComment star', false⟩ w →
      Spot.Holds ⟨.blockComment none, false⟩ w := fun _ _ h => ⟨h.region.forget, h.brace⟩
  refine (Passes.of_forall fun c hc => ?_).mono (hforget star) fun _ h => h
  have hslash : c ≠ '/' := Name.ne_of_isWordy (hs c hc) (by decide)
  have hbrace : (c == '{') = false := by simpa using Name.ne_of_isWordy (hs c hc) (d := '{') (by decide)
  refine (passes_of_step (q := ⟨.blockComment (some (c == '*')), false⟩) ?_).mono (fun _ h => h)
    (hforget _)
  simp [Spot.step, Region.step, hslash, hbrace]

/-! ### Prose -/

/-- The escaped form of prose stays inside its literal. -/
theorem passes_escapeChars {s : List Char} (hs : Prose s) {quote : Char}
    (hq : isQuote quote = true) :
    Passes ⟨.literal quote, false⟩ (escapeChars s) ⟨.literal quote, false⟩ := by
  rw [escapeChars, List.flatMap_def]
  refine Passes.flatten fun piece hpiece => ?_
  obtain ⟨c, hc, rfl⟩ := List.mem_map.mp hpiece
  have hbrace : c ≠ '{' := ne_of_mem_of_not_mem hc hs.2
  split
  · -- the backslash takes the character after it out of the scan
    rename_i hspecial
    intro w hw
    obtain ⟨opened, hmode⟩ := hw.region
    have hopen : w.brace = false := by simpa using hw.brace
    refine ⟨⟨⟨.literal quote opened false, w.scan.stack, lineAfter w.scan.line c⟩, false⟩, ?_,
      ⟨⟨opened, rfl⟩, id⟩, rfl⟩
    have hback : w.step '\\' = some ⟨{ w.scan with mode := .literal quote opened true }, false⟩ := by
      refine Watch.step_eq_some_iff.mpr ⟨by simp [hopen], ?_, rfl⟩
      rw [Scan.step, hmode]
      rfl
    rw [Watch.run_cons, hback, Option.bind_some, Watch.run_cons]
    simp [Watch.step, Scan.step, Except.toOption, hbrace, Watch.run]
  · rename_i hspecial
    have hplain : c ≠ '\\' ∧ c ≠ quote := by
      simp only [isSpecial, Bool.or_eq_true, beq_iff_eq, not_or] at hspecial
      simp only [isQuote, Bool.or_eq_true, beq_iff_eq] at hq
      rcases hq with (rfl | rfl) | rfl <;> simp_all
    have hline : c ≠ '\n' := ne_of_mem_of_not_mem hc hs.1
    exact passes_of_step (by simp [Spot.step, Region.step, hplain, hline, hbrace])

/-- A description is escaped prose, whatever the text. -/
theorem escaped_description (s : String) : TextKind.escaped.Holds (description s).toList := by
  refine ⟨shorten (cleanDescription s.toList), ⟨fun h => ?_, fun h => ?_⟩, by simp [description]⟩
  · rcases mem_shorten h with h | h
    · exact absurd ((mem_cleanDescription h).2.2 (by decide)) (by decide)
    · exact absurd h (by decide)
  · rcases mem_shorten h with h | h
    · exact (mem_cleanDescription h).1 rfl
    · exact absurd h (by decide)

/-! ### Remarks -/

/-- A remark without its first character is one. -/
theorem Remark.tail {c : Char} {s : List Char} (h : Remark (c :: s)) : Remark s where
  noEnd hs := h.noEnd (List.infix_cons hs)
  noHole hs := h.noHole (List.infix_cons hs)
  noStatement hs := h.noStatement (List.infix_cons hs)

/-- A remark stays inside a block comment, wherever its first character may stand. -/
theorem passes_remark {s : List Char} (hs : Remark s) {star brace : Bool}
    (hstar : star = true → s.head? ≠ some '/')
    (hbrace : brace = true → ∀ c ∈ s.head?, opensHole c = false) :
    Passes ⟨.blockComment (some star), brace⟩ s ⟨.blockComment none, true⟩ := by
  induction s generalizing star brace with
  | nil => exact (Passes.nil _).mono (fun _ h => h) fun _ h => ⟨h.region.forget, fun _ => rfl⟩
  | cons c s ih =>
    have hstep : (⟨.blockComment (some star), brace⟩ : Spot).step c =
        some ⟨.blockComment (some (c == '*')), c == '{'⟩ := by
      have hopen : (brace && opensHole c) = false := by
        cases brace with
        | false => rfl
        | true => simpa using hbrace rfl c rfl
      rw [Spot.step, hopen]
      by_cases hc : c = '/'
      · subst hc
        cases star with
        | false => rfl
        | true => simp at hstar
      · simp [Region.step, hc]
    refine (passes_of_step hstep).append (ih hs.tail ?_ ?_)
    · intro hc hhead
      -- a star and a slash would end the comment
      obtain ⟨t, rfl⟩ : ∃ t, s = '/' :: t := by
        cases s <;> simp_all
      obtain rfl : c = '*' := by simpa using hc
      exact hs.noEnd ⟨[], t, rfl⟩
    · intro hc d hd
      -- the two characters would open a hole or a statement
      obtain ⟨t, rfl⟩ : ∃ t, s = d :: t := by
        cases s <;> simp_all
      obtain rfl : c = '{' := by simpa using hc
      rw [Bool.eq_false_iff]
      intro hopens
      simp only [opensHole, Bool.or_eq_true, beq_iff_eq] at hopens
      rcases hopens with rfl | rfl
      · exact hs.noHole ⟨[], t, rfl⟩
      · exact hs.noStatement ⟨[], t, rfl⟩

/-! ### All kinds -/

variable {k : TextKind} {p q : Spot} {s : List Char}

/-- **A text of a kind passes** to the spot that is computed for the kind. -/
theorem TextKind.passes (h : k.after p = some q) (hs : k.Holds s) : Passes p s q := by
  obtain ⟨region, brace⟩ := p
  cases brace with
  | true =>
    -- after an opening brace the first character of the text would count
    unfold TextKind.after at h
    cases h
  | false =>
    have hword (hs : Wordy s)
        (hr : region = .code ∨ region = .lineComment ∨ ∃ q, region = .literal q ∧ isQuote q = true) :
        Passes ⟨region, false⟩ s ⟨region, false⟩ :=
      .of_forall fun c hc => passes_of_step (step_of_isWordy (hs c hc) hr)
    unfold TextKind.after at h
    rw [if_neg Bool.false_ne_true] at h
    cases region with
    | code =>
      -- names, and texts that pass as code
      dsimp only at h
      split at h
      · rename_i hk
        cases h
        rcases hk with rfl | rfl
        · exact hword hs (.inl rfl)
        · exact hs
      · cases h
    | slash => cases h
    | lineComment =>
      dsimp only at h
      split at h
      · rename_i hk
        cases h
        subst hk
        exact hword hs (.inr (.inl rfl))
      · cases h
    | blockComment star =>
      -- names, and remarks where the character before is known to be no star
      dsimp only at h
      split at h
      · cases h
        exact passes_blockComment_of_wordy hs _
      · split at h
        · rename_i hstar
          cases h
          subst hstar
          exact passes_remark hs (by simp) (by simp)
        · cases h
      · cases h
    | literal quote =>
      -- names and escaped prose in any quotes, and paths in those of a template
      dsimp only at h
      split at h
      · split at h
        · cases h
          exact hword hs (.inr (.inr ⟨quote, rfl, ‹_›⟩))
        · cases h
      · split at h
        · cases h
          obtain ⟨t, ht, rfl⟩ := hs
          exact passes_escapeChars ht ‹_›
        · cases h
      · split at h
        · rename_i hquote
          cases h
          subst hquote
          exact hs
        · cases h
      · cases h

/-- The escaped form of a name is the name. -/
theorem escapeChars_of_wordy (hs : Wordy s) : escapeChars s = s :=
  escapeChars_eq_self fun c hc => isSpecial_of_isWordy (hs c hc)

/-- **The escaped form of a text of a kind passes.** -/
theorem TextKind.passes_escaped (h : k.afterEscaped p = some q) (hs : k.Holds s) :
    Passes p (escapeChars s) q := by
  cases k with
  | word =>
    rw [escapeChars_of_wordy hs]
    exact TextKind.passes (k := .word) h hs
  | prose => exact TextKind.passes (k := .escaped) h ⟨s, hs, rfl⟩
  | _ => cases h

end ApiNodes.Typescript
