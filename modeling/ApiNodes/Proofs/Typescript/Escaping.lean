import ApiNodes.Proofs.Typescript.Pieces
import ApiNodes.Typescript.Literal

namespace ApiNodes.Typescript

/-!
# Escaping and the scan

An escaped text is put between quotes, and the scan of brackets has to pass over it as one literal.
What the scan does in a literal depends on the quote and on a pending backslash alone, so that the
end of a literal can be told from there.

* `literalEnd?`, `finish_literal` — where a literal ends, and that the scan goes on there;
* `literalLength?_append`, `literalLength?_escapeChars` — it passes over the body of a literal, and
  an escaped text is one unless an end of line stands in it;
* `finish_escapeChars` — what the scan of brackets makes of an escaped text between quotes;
* `readLiteral?_escapeChars` — what is read between the quotes is the text;
* `escape_scanned` — the scan and the escaping agree.
-/

variable {quote c : Char} {body s rest : List Char} {v : String}

/-! ### The end of a literal -/

/-- How many characters a scan takes in a literal of a quote, after a backslash or not, up to the
    quote that ends it; nothing if it does not come to an end. -/
def literalLength? (quote : Char) (escaped : Bool) : List Char → Option Nat
  | [] => none
  | c :: r =>
    match Scan.step { mode := .literal quote 1 escaped } c with
    | .ok ⟨.literal _ _ escaped, _, _⟩ => (literalLength? quote escaped r).map (· + 1)
    | .ok _ => some 1
    | .error _ => none

/-- The position after the literal that begins at a position of a text. -/
def literalEnd? (text : List Char) (start : Nat) : Option Nat :=
  match text.drop start with
  | [] => none
  | quote :: r => (literalLength? quote false r).map (start + 1 + ·)

/-- A backslash takes the next character with it. -/
theorem literalLength?_backslash (quote c : Char) (s : List Char) :
    literalLength? quote false ('\\' :: c :: s) = (literalLength? quote false s).map (· + 2) := by
  simp only [literalLength?, Scan.step, if_true, Option.map_map]
  rfl

/-- The quote ends the literal. -/
theorem literalLength?_quote (h : quote ≠ '\\') (s : List Char) :
    literalLength? quote false (quote :: s) = some 1 := by
  simp [literalLength?, Scan.step, h]

/-- An end of line is no part of a literal, except between back quotes. -/
theorem literalLength?_line (h : quote ≠ '\n') (hquote : quote ≠ '\x60') (s : List Char) :
    literalLength? quote false ('\n' :: s) = none := by
  simp [literalLength?, Scan.step, Ne.symm h, hquote]

/-- Any other character is passed over. -/
theorem literalLength?_plain (hescape : c ≠ '\\') (hquote : c ≠ quote)
    (hline : c = '\n' → quote = '\x60') (s : List Char) :
    literalLength? quote false (c :: s) = (literalLength? quote false s).map (· + 1) := by
  have hinside : ¬(c = '\n' ∧ quote ≠ '\x60') := fun h => h.2 (hline h.1)
  simp [literalLength?, Scan.step, hescape, hquote, hinside]

/-- **The scan passes over the body of a literal.** -/
theorem literalLength?_append (h : LiteralBody quote body) (s : List Char) :
    literalLength? quote false (body ++ s) =
      (literalLength? quote false s).map (· + body.length) := by
  induction h with
  | nil => simp
  | escaped c _ ih =>
    rw [List.cons_append, List.cons_append, literalLength?_backslash, ih, Option.map_map]
    rfl
  | plain hescape hquote hline _ ih =>
    rw [List.cons_append, literalLength?_plain hescape hquote hline, ih, Option.map_map]
    rfl

/-- **Where a literal ends, the scan of brackets goes on**, whatever is open there; where it has no
    end, that is what the scan finds. -/
theorem finish_literal (hend : quote ≠ '\n') (escaped : Bool) (opened : Nat)
    (stack : List (Char × Nat)) (line : Nat) (s : List Char) :
    (Scan.run ⟨.literal quote opened escaped, stack, line⟩ s).bind Scan.finish =
      match literalLength? quote escaped s with
      | some n =>
        (Scan.run ⟨.code, stack, line + (s.take n).count '\n'⟩ (s.drop n)).bind Scan.finish
      | none => .error (.unterminated opened) := by
  induction s generalizing escaped line with
  | nil => rfl
  | cons c s ih =>
    -- a character inside the literal leaves a state in which the rest is read
    have hinside (escaped' : Bool)
        (hstep : ∀ opened stack line, Scan.step ⟨.literal quote opened escaped, stack, line⟩ c =
          .ok ⟨.literal quote opened escaped', stack, lineAfter line c⟩) :
        (Scan.run ⟨.literal quote opened escaped, stack, line⟩ (c :: s)).bind Scan.finish =
          match literalLength? quote escaped (c :: s) with
          | some n => (Scan.run ⟨.code, stack, line + ((c :: s).take n).count '\n'⟩
              ((c :: s).drop n)).bind Scan.finish
          | none => .error (.unterminated opened) := by
      have htail := ih escaped' (lineAfter line c)
      rw [Scan.run_cons, hstep, literalLength?, hstep]
      refine htail.trans ?_
      dsimp only
      cases literalLength? quote escaped' s with
      | none => rfl
      | some n =>
        rw [Option.map_some]
        dsimp only
        rw [List.take_succ_cons, List.drop_succ_cons, lineAfter_add_count]
    cases escaped with
    | true => exact hinside false fun _ _ _ => rfl
    | false =>
      by_cases hescape : c = '\\'
      · subst hescape
        exact hinside true fun _ _ _ => rfl
      · by_cases hquote : c = quote
        · subst hquote
          have hstep : Scan.step ⟨.literal c opened false, stack, line⟩ c =
              .ok ⟨.code, stack, line⟩ := by
            simp [Scan.step, hescape]
          rw [Scan.run_cons, hstep, literalLength?_quote hescape]
          dsimp only
          rw [List.take_succ_cons, List.take_zero, List.count_singleton, if_neg (by simpa using hend)]
          rfl
        · by_cases hline : c = '\n' ∧ quote ≠ '\x60'
          · obtain ⟨rfl, hback⟩ := hline
            rw [Scan.run_cons, literalLength?_line hend hback]
            simp [Scan.step, hquote, hback, Except.bind]
          · exact hinside false fun _ _ _ => by simp [Scan.step, hescape, hquote, hline]

/-! ### Escaped texts -/

/-- A character of an escaped text: itself, behind a backslash if it is escaped. -/
theorem escapeChars_cons (c : Char) (s : List Char) :
    escapeChars (c :: s) = (if isSpecial c then ['\\', c] else [c]) ++ escapeChars s :=
  List.flatMap_cons

/-- Escaping adds nothing but backslashes. -/
theorem mem_escapeChars (h : c ∈ escapeChars s) : c ∈ s ∨ c = '\\' := by
  obtain ⟨d, hd, hc⟩ := List.mem_flatMap.mp h
  split at hc
  · rcases List.mem_cons.mp hc with rfl | hc
    · exact .inr rfl
    · exact .inl (List.mem_singleton.mp hc ▸ hd)
  · exact .inl (List.mem_singleton.mp hc ▸ hd)

/-- A character that is not escaped is no backslash and no quote. -/
theorem ne_of_not_isSpecial (h : isSpecial c = false) : c ≠ '\\' ∧ isQuote c = false := by
  simp only [isSpecial, Bool.or_eq_false_iff, beq_eq_false_iff_ne] at h
  obtain ⟨⟨⟨hescape, hsingle⟩, hdouble⟩, hback⟩ := h
  exact ⟨hescape, by simp [isQuote, hsingle, hdouble, hback]⟩

/-- An escaped text is the body of a literal of any quote, if no end of line stands in it or the
    quote lets a line end. -/
theorem literalBody_escapeChars (hquote : isQuote quote = true)
    (h : quote = '\x60' ∨ '\n' ∉ s) : LiteralBody quote (escapeChars s) := by
  induction s with
  | nil => exact .nil
  | cons c s ih =>
    have hs : quote = '\x60' ∨ '\n' ∉ s :=
      h.imp_right fun hline hmem => hline (List.mem_cons_of_mem c hmem)
    rw [escapeChars_cons]
    split
    · exact .escaped c (ih hs)
    · rename_i hspecial
      obtain ⟨hescape, hother⟩ := ne_of_not_isSpecial (by simpa using hspecial)
      refine .plain hescape ?_ ?_ (ih hs)
      · rintro rfl
        rw [hother] at hquote
        cases hquote
      · rintro rfl
        exact h.resolve_right fun hline => hline List.mem_cons_self

/-- **The scan of an escaped text between quotes** ends with the closing quote, or at the first end of
    line that a quote does not let pass. -/
theorem literalLength?_escapeChars (hquote : isQuote quote = true) (s rest : List Char) :
    literalLength? quote false (escapeChars s ++ quote :: rest) =
      if quote = '\x60' ∨ '\n' ∉ s then some ((escapeChars s).length + 1) else none := by
  obtain ⟨hescape, -, hend⟩ := ne_of_isQuote hquote
  split
  · rename_i h
    rw [literalLength?_append (literalBody_escapeChars hquote h), literalLength?_quote hescape]
    simp [Nat.add_comm]
  · rename_i h
    obtain ⟨hback, hline⟩ : quote ≠ '\x60' ∧ '\n' ∈ s := by simpa using h
    -- what stands before the first end of line is passed over
    obtain ⟨before, after, rfl, hbefore⟩ := List.eq_append_cons_of_mem hline
    have htext : escapeChars (before ++ '\n' :: after) ++ quote :: rest =
        escapeChars before ++ '\n' :: (escapeChars after ++ quote :: rest) := by
      simp [escapeChars, isSpecial]
    rw [htext, literalLength?_append (literalBody_escapeChars hquote (.inr hbefore)),
      literalLength?_line hend hback]
    rfl

/-- Escaping keeps the ends of lines. -/
theorem count_escapeChars (s : List Char) : (escapeChars s).count '\n' = s.count '\n' := by
  induction s with
  | nil => rfl
  | cons c s ih =>
    rw [escapeChars_cons, List.count_append, ih, List.count_cons]
    split
    · rw [List.count_cons_of_ne (by decide), List.count_singleton, Nat.add_comm]
    · rw [List.count_singleton, Nat.add_comm]

/-- **The scan of brackets goes on behind an escaped text** between quotes, or tells of a literal
    that is not terminated. -/
theorem finish_escapeChars (hquote : isQuote quote = true) (stack : List (Char × Nat)) (line : Nat)
    (s rest : List Char) :
    (Scan.run ⟨.code, stack, line⟩ (quote :: (escapeChars s ++ quote :: rest))).bind Scan.finish =
      if quote = '\x60' ∨ '\n' ∉ s then
        (Scan.run ⟨.code, stack, line + s.count '\n'⟩ rest).bind Scan.finish
      else .error (.unterminated line) := by
  obtain ⟨-, -, hend⟩ := ne_of_isQuote hquote
  have hopen : Scan.step ⟨.code, stack, line⟩ quote =
      .ok ⟨.literal quote line false, stack, line⟩ := code_quote hquote
  rw [Scan.run_cons, hopen]
  refine (finish_literal hend false line stack line _).trans ?_
  rw [literalLength?_escapeChars hquote]
  by_cases hpass : quote = '\x60' ∨ '\n' ∉ s
  · -- the literal ends at its closing quote, and its lines are those of the text
    have htake : (escapeChars s ++ quote :: rest).take ((escapeChars s).length + 1) =
        escapeChars s ++ [quote] := by
      rw [List.take_append, List.take_of_length_le (by omega)]
      simp
    have hdrop : (escapeChars s ++ quote :: rest).drop ((escapeChars s).length + 1) = rest := by
      rw [List.drop_append]
      simp
    rw [if_pos hpass, if_pos hpass]
    dsimp only
    rw [htake, hdrop, List.count_append, count_escapeChars, List.count_singleton,
      if_neg (by simpa using hend), Nat.add_zero]
  · -- an end of line stops the literal
    rw [if_neg hpass, if_neg hpass]

/-! ### Reading back -/

/-- The text without its escapes: each backslash and the character behind it are replaced by that
    character. -/
def unescapeChars : List Char → List Char
  | '\\' :: c :: r => c :: unescapeChars r
  | c :: r => c :: unescapeChars r
  | [] => []

/-- A character that is no backslash stays. -/
theorem unescapeChars_cons (h : c ≠ '\\') (s : List Char) :
    unescapeChars (c :: s) = c :: unescapeChars s := by
  rw [unescapeChars]
  intro d r hc
  exact absurd hc h

/-- Escapes are taken back. -/
theorem unescapeChars_escapeChars (s : List Char) : unescapeChars (escapeChars s) = s := by
  induction s with
  | nil => rfl
  | cons c s ih =>
    rw [escapeChars_cons]
    split
    · show c :: unescapeChars (escapeChars s) = _
      rw [ih]
    · rename_i hspecial
      obtain ⟨hescape, -⟩ := ne_of_not_isSpecial (by simpa using hspecial)
      show unescapeChars (c :: escapeChars s) = _
      rw [unescapeChars_cons hescape, ih]

/-- Read a literal in single quotes at the head of a text: what it denotes, and what follows it. -/
def readLiteral? (text : List Char) : Option (String × List Char) :=
  match text with
  | '\x27' :: r => (literalLength? '\x27' false r).map fun n =>
      (.ofList (unescapeChars (r.take (n - 1))), r.drop n)
  | _ => none

/-- **An escaped text between single quotes is read as the text**, where no end of line stands in
    it. -/
theorem readLiteral?_escapeChars (h : '\n' ∉ s) (rest : List Char) :
    readLiteral? ('\x27' :: (escapeChars s ++ '\x27' :: rest)) = some (.ofList s, rest) := by
  rw [readLiteral?, literalLength?_escapeChars (by decide), if_pos (.inr h), Option.map_some,
    Nat.add_sub_cancel, List.take_left, unescapeChars_escapeChars, List.drop_append]
  simp

/-! ### Agreement -/

/-- A backslash in front of every mark of a text. -/
def guardChars (mark : Char) (s : List Char) : List Char :=
  s.flatMap fun c => if c = mark then ['\\', c] else [c]

/-- **Escaping is four replacements**, of which that of the backslash comes first: none of the others
    touches what it has put in. -/
theorem escapeChars_eq_guardChars (s : List Char) :
    escapeChars s =
      guardChars '\x60' (guardChars '\x22' (guardChars '\x27' (guardChars '\\' s))) := by
  induction s with
  | nil => rfl
  | cons c s ih =>
    rw [escapeChars_cons, ih]
    by_cases hescape : c = '\\'
    · subst hescape
      rfl
    · by_cases hsingle : c = '\x27'
      · subst hsingle
        rfl
      · by_cases hdouble : c = '\x22'
        · subst hdouble
          rfl
        · by_cases hquote : c = '\x60'
          · subst hquote
            rfl
          · simp [guardChars, isSpecial, hescape, hsingle, hdouble, hquote]

/-- **Escaping and the scan agree.**  The literal that an escaped text makes between quotes ends with
    the closing one, whatever stands before and behind it, unless an end of line is in the text that
    the quote does not let pass; the scan of brackets goes on there, or tells of the literal; and the
    escapes can be taken back, so that no two texts have the same escaped form. -/
theorem escape_scanned (hquote : isQuote quote = true) (before after : List Char) :
    (∀ v : String,
      literalEnd? (before ++ quote :: ((escape v).toList ++ quote :: after)) before.length =
        (if quote = '\x60' ∨ '\n' ∉ v.toList then some (before.length + (escape v).length + 2)
          else none) ∧
      (∀ stack line,
        (Scan.run ⟨.code, stack, line⟩ (quote :: ((escape v).toList ++ quote :: after))).bind
            Scan.finish =
          if quote = '\x60' ∨ '\n' ∉ v.toList then
            (Scan.run ⟨.code, stack, line + v.toList.count '\n'⟩ after).bind Scan.finish
          else .error (.unterminated line)) ∧
      unescapeChars (escape v).toList = v.toList) ∧
    Function.Injective escape := by
  have hunescape : ∀ v : String, unescapeChars (escape v).toList = v.toList := by
    intro v
    rw [escape, String.toList_ofList, unescapeChars_escapeChars]
  refine ⟨fun v => ⟨?_, fun stack line => ?_, hunescape v⟩, fun v w h => ?_⟩
  · have hlength : (escape v).length = (escapeChars v.toList).length := by
      rw [escape, String.length_ofList]
    rw [literalEnd?, List.drop_left, hlength, escape, String.toList_ofList]
    dsimp only
    rw [literalLength?_escapeChars hquote]
    split
    · simp only [Option.map_some, Option.some.injEq]
      omega
    · rfl
  · rw [escape, String.toList_ofList]
    exact finish_escapeChars hquote stack line v.toList after
  · rw [← String.toList_inj, ← hunescape v, h, hunescape w]

/-- A text that ends in a backslash, and one of two lines. -/
theorem escape_scanned_awkwardTexts :
    isQuote '\x27' = true ∧
    literalEnd? ("f(".toList ++ '\x27' :: ((escape "it\x27s \\").toList ++ '\x27' :: ")".toList))
      "f(".toList.length = some 12 ∧
    literalEnd? ("f(".toList ++ '\x27' :: ((escape "\\\n\x27").toList ++ '\x27' :: ")".toList))
      "f(".toList.length = none := by
  have hquote : isQuote '\x27' = true := rfl
  have hscanned := (escape_scanned hquote "f(".toList ")".toList).1
  refine ⟨hquote, ?_, ?_⟩
  · rw [(hscanned "it\x27s \\").1]
    decide
  · rw [(hscanned "\\\n\x27").1]
    decide

end ApiNodes.Typescript
