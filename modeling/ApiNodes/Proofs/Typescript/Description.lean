import ApiNodes.Proofs.Typescript.Escaping

namespace ApiNodes.Typescript

/-!
# Descriptions

A description is cleaned, cut and then escaped, in this order, so that no escape is cut.

* `mem_cleanDescription` — the characters that are left of a text that is made a description;
* `mem_shorten`, `shows_shorten` — the cut adds none but the periods of its mark;
* `description_inert` — what stands between the quotes, and what it is read as.
-/

variable {c : Char} {s : List Char}

/-- The only white space of a collapsed text is the space, and the rest is of the text. -/
theorem mem_collapseFrom {inRun : Bool} (h : c ∈ Text.collapseFrom inRun s) :
    c = ' ' ∨ (c ∈ s ∧ Text.isBlank c = false) := by
  induction s generalizing inRun with
  | nil => cases h
  | cons d r ih =>
    have hr {inRun} (h : c ∈ Text.collapseFrom inRun r) :
        c = ' ' ∨ (c ∈ d :: r ∧ Text.isBlank c = false) :=
      (ih h).imp_right fun ⟨hc, hb⟩ => ⟨List.mem_cons_of_mem d hc, hb⟩
    rw [Text.collapseFrom] at h
    split at h
    · split at h
      · exact hr h
      · rcases List.mem_cons.mp h with rfl | h
        · exact .inl rfl
        · exact hr h
    · rename_i hd
      rcases List.mem_cons.mp h with rfl | h
      · exact .inr ⟨List.mem_cons_self, by simpa using hd⟩
      · exact hr h

/-- Trimming adds nothing. -/
theorem mem_of_mem_trimChars (h : c ∈ Text.trimChars s) : c ∈ s := by
  rw [Text.trimChars, List.mem_reverse] at h
  have h := List.mem_reverse.mp ((List.dropWhile_sublist _).mem h)
  exact (List.dropWhile_sublist _).mem h

/-- Dropping the final period adds nothing. -/
theorem mem_of_mem_dropPeriod (h : c ∈ dropPeriod s) : c ∈ s := by
  unfold dropPeriod at h
  split at h
  · rename_i r hr
    rw [← List.mem_reverse, hr]
    exact List.mem_cons_of_mem _ (List.mem_reverse.mp h)
  · exact h

/-- What is left of a text: no braces, and no white space but the space. -/
theorem mem_cleanDescription (h : c ∈ cleanDescription s) :
    c ≠ '{' ∧ c ≠ '}' ∧ (Text.isBlank c = true → c = ' ') := by
  have h := mem_of_mem_trimChars (mem_of_mem_dropPeriod h)
  simp only [List.mem_filter, Bool.and_eq_true, bne_iff_ne] at h
  refine ⟨h.2.1, h.2.2, fun hb => ?_⟩
  rcases mem_collapseFrom h.1 with rfl | ⟨-, hb'⟩
  · rfl
  · simp [hb] at hb'

/-- A cut text has its characters and the periods of the mark. -/
theorem mem_shorten (h : c ∈ shorten s) : c ∈ s ∨ c = '.' := by
  unfold shorten at h
  split at h
  · rcases List.mem_append.mp h with h | h
    · exact .inl (List.mem_of_mem_take h)
    · exact .inr (by simpa using h)
  · exact .inl h

/-! ### What is shown -/

/-- What a description shows of a cleaned text: it holds no braces, no white space but the space, and
    no more than the limit and the mark of a cut. -/
structure Shows (cleaned shown : List Char) : Prop where
  noBraces : '{' ∉ shown ∧ '}' ∉ shown
  blanks : ∀ c ∈ shown, Text.isBlank c = true → c = ' '
  noLineEnds : ∀ c ∈ ['\n', '\r', '\x85', '\u2028', '\u2029'], c ∉ shown
  length_le : shown.length ≤ 123
  whole : cleaned.length ≤ 120 → shown = cleaned
  cut : 120 < shown.length → shown = cleaned.take 120 ++ ['.', '.', '.']

/-- **What is left of a text after the cut is shown.** -/
theorem shows_shorten (s : List Char) :
    Shows (cleanDescription s) (shorten (cleanDescription s)) := by
  have hmem : ∀ c ∈ shorten (cleanDescription s),
      c ≠ '{' ∧ c ≠ '}' ∧ (Text.isBlank c = true → c = ' ') := by
    intro c hc
    rcases mem_shorten hc with hc | rfl
    · exact mem_cleanDescription hc
    · decide
  have hblanks : ∀ c ∈ shorten (cleanDescription s), Text.isBlank c = true → c = ' ' :=
    fun c hc => (hmem c hc).2.2
  refine
    { noBraces := ⟨fun h => (hmem _ h).1 rfl, fun h => (hmem _ h).2.1 rfl⟩
      blanks := hblanks, noLineEnds := ?_, length_le := ?_, whole := ?_, cut := ?_ }
  · -- an end of line of any kind is white space
    intro c hc h
    have hall : ['\n', '\r', '\x85', '\u2028', '\u2029'].all fun c =>
        Text.isBlank c && c != ' ' := by decide
    have hblank := List.all_eq_true.mp hall c hc
    rw [Bool.and_eq_true, bne_iff_ne] at hblank
    exact hblank.2 (hblanks c h hblank.1)
  all_goals
    unfold shorten descriptionLimit
    split
  · simp only [List.length_append, List.length_take, List.length_cons, List.length_nil]
    omega
  · omega
  · intro h
    omega
  · intro _
    rfl
  · intro _
    rfl
  · intro h
    omega

/-- **Descriptions are inert.**  Whatever the text, its description is the escaped form of what is
    shown of it, which between single quotes is one literal that denotes it, whatever follows; and no
    brace is in it, so that it holds no placeholder. -/
theorem description_inert (text : String) :
    ∃ shown, (description text).toList = escapeChars shown ∧
      Shows (cleanDescription text.toList) shown ∧
      (∀ rest, readLiteral? ('\x27' :: ((description text).toList ++ '\x27' :: rest)) =
        some (.ofList shown, rest)) ∧
      ∀ c ∈ (description text).toList, c ≠ '{' ∧ c ≠ '}' := by
  have hshows := shows_shorten text.toList
  have htext : (description text).toList =
      escapeChars (shorten (cleanDescription text.toList)) := by
    rw [description, String.toList_ofList]
  refine ⟨_, htext, hshows, fun rest => ?_, fun c hc => ?_⟩
  · rw [htext]
    exact readLiteral?_escapeChars (hshows.noLineEnds '\n' (by decide)) rest
  · -- escaping adds backslashes only
    rw [htext] at hc
    rcases mem_escapeChars hc with hc | rfl
    · exact ⟨ne_of_mem_of_not_mem hc hshows.noBraces.1, ne_of_mem_of_not_mem hc hshows.noBraces.2⟩
    · decide

-- the brace uncovers white space at the end, and the period is dropped after that
example : description "Bob\x27s \x7bid\x7d\r\n no. \x7d" = "Bob\\\x27s id no" := by decide

end ApiNodes.Typescript
