import ApiNodes.Text.Pieces
import Mathlib.Data.List.TakeWhile

namespace ApiNodes.Text

/-!
# Cutting and joining: lemmas

What the cuts and tests of `Text/Pieces` say about the text itself:

* `after?_eq_some_iff` — the rest after a beginning is the text without it;
* `head?_cut`, `cut_append`, `mem_of_mem_cut` — the pieces between separators;
* `infix_of_mem_cut`, `exists_mem_cut_of_infix` — what stands in a piece, and what stands in one;
* `head?_filter_cut` — the first piece that is not empty, found behind the separators that
  the text begins with.
-/

variable {sep c : Char} {start s rest p : List Char}

/-! ### Beginnings and ends -/

/-- The rest after a beginning is what the beginning lacks of the text. -/
theorem after?_eq_some_iff : after? start s = some rest ↔ s = start ++ rest := by
  induction start generalizing s with
  | nil => simp [after?, eq_comm]
  | cons a start ih =>
    cases s with
    | nil => simp [after?]
    | cons c s =>
      by_cases h : a = c
      · subst h
        simp [after?, ih]
      · simp [after?, h, Ne.symm h]

/-- A text begins with another when it goes on from it. -/
theorem startsWith_iff {start : String} : startsWith start s = true ↔ start.toList <+: s := by
  rw [startsWith, Option.isSome_iff_exists]
  constructor
  · rintro ⟨rest, h⟩
    exact ⟨rest, (after?_eq_some_iff.mp h).symm⟩
  · rintro ⟨rest, h⟩
    exact ⟨rest, after?_eq_some_iff.mpr h.symm⟩

/-- A text ends with another when it leads up to it. -/
theorem endsWith_iff {tail : String} : endsWith tail s = true ↔ tail.toList <:+ s := by
  rw [endsWith, Option.isSome_iff_exists, ← List.reverse_prefix]
  constructor
  · rintro ⟨rest, h⟩
    exact ⟨rest, (after?_eq_some_iff.mp h).symm⟩
  · rintro ⟨rest, h⟩
    exact ⟨rest, after?_eq_some_iff.mpr h.symm⟩

/-! ### Cutting -/

/-- What stands before the first separator. -/
theorem takeWhile_ne_eq_iff :
    s.takeWhile (· != sep) = p ↔
      ∃ rest, s = p ++ rest ∧ sep ∉ p ∧ ∀ c ∈ rest.head?, c = sep := by
  constructor
  · rintro rfl
    refine ⟨s.dropWhile (· != sep), (List.takeWhile_append_dropWhile).symm, ?_, ?_⟩
    · intro h
      simpa using List.mem_takeWhile_imp h
    · intro c hc
      have h := List.head?_dropWhile_not (· != sep) s
      rw [Option.mem_def.mp hc] at h
      simpa using h
  · rintro ⟨rest, rfl, hsep, hrest⟩
    have hstop : rest.takeWhile (· != sep) = [] := by
      cases rest with
      | nil => rfl
      | cons c rest => simp [hrest c rfl]
    have hkeep : ∀ c ∈ p, (c != sep) = true := by
      intro c hc
      simpa using ne_of_mem_of_not_mem hc hsep
    rw [List.takeWhile_append_of_pos hkeep, hstop, List.append_nil]

/-- The first piece reaches up to the first separator. -/
theorem head?_cut (sep : Char) (s : List Char) :
    (cut sep s).head? = some (s.takeWhile (· != sep)) := by
  induction s with
  | nil => rfl
  | cons c r ih =>
    by_cases h : c = sep
    · simp [cut, h]
    · cases hr : cut sep r with
      | nil => simp [hr] at ih
      | cons q qs =>
        rw [hr, List.head?_cons, Option.some.injEq] at ih
        simp [cut, h, hr, ih]

/-- No piece holds the separator. -/
theorem not_mem_of_mem_cut (h : p ∈ cut sep s) : sep ∉ p := by
  induction s generalizing p with
  | nil => simp_all [cut]
  | cons c r ih =>
    by_cases hc : c = sep
    · rw [cut, if_pos hc, List.mem_cons] at h
      rcases h with rfl | h
      · exact List.not_mem_nil
      · exact ih h
    · rw [cut, if_neg hc] at h
      cases hr : cut sep r with
      | nil =>
        rw [hr, List.mem_singleton] at h
        simp [h, Ne.symm hc]
      | cons q qs =>
        rw [hr, List.mem_cons] at h
        rcases h with rfl | h
        · simp [Ne.symm hc, ih (hr ▸ List.mem_cons_self)]
        · exact ih (hr ▸ List.mem_cons_of_mem q h)

/-- The characters of a piece are those of the text. -/
theorem mem_of_mem_cut (hp : p ∈ cut sep s) (hc : c ∈ p) : c ∈ s := by
  induction s generalizing p with
  | nil => simp_all [cut]
  | cons d r ih =>
    by_cases hd : d = sep
    · rw [cut, if_pos hd, List.mem_cons] at hp
      rcases hp with rfl | hp
      · simp at hc
      · exact List.mem_cons_of_mem d (ih hp hc)
    · rw [cut, if_neg hd] at hp
      cases hr : cut sep r with
      | nil =>
        rw [hr, List.mem_singleton] at hp
        simp_all
      | cons q qs =>
        rw [hr, List.mem_cons] at hp
        rcases hp with rfl | hp
        · rcases List.mem_cons.mp hc with rfl | hc
          · exact List.mem_cons_self
          · exact List.mem_cons_of_mem d (ih (hr ▸ List.mem_cons_self) hc)
        · exact List.mem_cons_of_mem d (ih (hr ▸ List.mem_cons_of_mem q hp) hc)

/-- A piece stands in the text. -/
theorem infix_of_mem_cut (hp : p ∈ cut sep s) : p <:+: s := by
  induction s generalizing p with
  | nil => simp_all [cut]
  | cons d r ih =>
    by_cases hd : d = sep
    · rw [cut, if_pos hd, List.mem_cons] at hp
      rcases hp with rfl | hp
      · exact List.nil_infix
      · exact List.infix_cons (ih hp)
    · have hr := head?_cut sep r
      rw [cut, if_neg hd] at hp
      cases hc : cut sep r with
      | nil => simp [hc] at hr
      | cons q qs =>
        rw [hc, List.mem_cons] at hp
        rcases hp with rfl | hp
        · rw [hc, List.head?_cons, Option.some.injEq] at hr
          exact (List.prefix_cons_inj d |>.mpr (hr ▸ List.takeWhile_prefix _)).isInfix
        · exact List.infix_cons (ih (hc ▸ List.mem_cons_of_mem q hp))

/-- What stands in a text without the separator stands in one of the pieces. -/
theorem exists_mem_cut_of_infix {t : List Char} (ht : sep ∉ t) (h : t <:+: s) :
    ∃ p ∈ cut sep s, t <:+: p := by
  induction s with
  | nil => exact ⟨[], by simp [cut], h⟩
  | cons d r ih =>
    have hr := head?_cut sep r
    by_cases hd : d = sep
    · rw [cut, if_pos hd]
      rcases List.infix_cons_iff.mp h with hfront | hinside
      · -- the text does not begin with the separator
        cases t with
        | nil => exact ⟨[], List.mem_cons_self, List.nil_infix⟩
        | cons e t =>
          obtain ⟨rfl, -⟩ := List.cons_prefix_cons.mp hfront
          exact absurd (hd ▸ List.mem_cons_self) ht
      · obtain ⟨p, hp, htp⟩ := ih hinside
        exact ⟨p, List.mem_cons_of_mem _ hp, htp⟩
    · rw [cut, if_neg hd]
      cases hc : cut sep r with
      | nil => simp [hc] at hr
      | cons q qs =>
        rw [hc, List.head?_cons, Option.some.injEq] at hr
        rcases List.infix_cons_iff.mp h with hfront | hinside
        · refine ⟨d :: q, List.mem_cons_self, List.IsPrefix.isInfix ?_⟩
          cases t with
          | nil => exact List.nil_prefix
          | cons e t =>
            obtain ⟨rfl, u, rfl⟩ := List.cons_prefix_cons.mp hfront
            rw [List.mem_cons, not_or] at ht
            have hkeep : ∀ c ∈ t, (c != sep) = true := fun c hc => by
              simpa using ne_of_mem_of_not_mem hc ht.2
            rw [hr, List.takeWhile_append_of_pos hkeep]
            exact ⟨_, rfl⟩
        · obtain ⟨p, hp, htp⟩ := ih hinside
          rw [hc] at hp
          rcases List.mem_cons.mp hp with rfl | hp
          · exact ⟨d :: p, List.mem_cons_self, List.infix_cons htp⟩
          · exact ⟨p, List.mem_cons_of_mem _ hp, htp⟩

/-- A text without the separator is its only piece. -/
theorem cut_of_not_mem (h : sep ∉ s) : cut sep s = [s] := by
  induction s with
  | nil => rfl
  | cons c r ih =>
    rw [List.mem_cons, not_or] at h
    rw [cut, if_neg (Ne.symm h.1), ih h.2]

/-- The pieces before a separator and those behind it. -/
theorem cut_append (sep : Char) (s t : List Char) :
    cut sep (s ++ sep :: t) = cut sep s ++ cut sep t := by
  induction s with
  | nil => simp [cut]
  | cons c r ih =>
    by_cases h : c = sep
    · simp [cut, h, ih]
    · have hr := head?_cut sep r
      rw [List.cons_append, cut, if_neg h, ih, cut, if_neg h]
      cases hc : cut sep r with
      | nil => simp [hc] at hr
      | cons q qs => rfl

/-- Joined pieces are the first one, and the others with a separator in front of each. -/
theorem join_cons (sep p : List Char) (ps : List (List Char)) :
    join sep (p :: ps) = p ++ ps.flatMap (sep ++ ·) := by
  induction ps generalizing p with
  | nil => rw [join, List.flatMap_nil, List.append_nil]
  | cons q ps ih => rw [join, ih, List.flatMap_cons, List.append_assoc, List.append_assoc]

/-- The first piece with anything in it is found behind the separators at the head. -/
theorem head?_filter_cut_eq (sep : Char) (s : List Char) :
    ((cut sep s).filter (!·.isEmpty)).head? =
      (some ((s.dropWhile (· == sep)).takeWhile (· != sep))).filter (!·.isEmpty) := by
  induction s with
  | nil => rfl
  | cons c r ih =>
    by_cases h : c = sep
    · simp [cut, h, ih]
    · have hr := head?_cut sep r
      cases hc : cut sep r with
      | nil => simp [hc] at hr
      | cons q qs =>
        rw [hc, List.head?_cons, Option.some.injEq] at hr
        simp [cut, h, hc, hr, Option.filter]

/-- The first piece with anything in it begins behind the separators at the head of the
    text and reaches up to the next one. -/
theorem head?_filter_cut :
    ((cut sep s).filter (!·.isEmpty)).head? = some p ↔
      p ≠ [] ∧ sep ∉ p ∧ ∃ lead rest, s = lead ++ p ++ rest ∧ (∀ c ∈ lead, c = sep) ∧
        ∀ c ∈ rest.head?, c = sep := by
  rw [head?_filter_cut_eq, Option.filter_eq_some_iff, Option.some.injEq, takeWhile_ne_eq_iff]
  constructor
  · rintro ⟨⟨rest, hs, hsep, hrest⟩, hne⟩
    refine ⟨by simpa using hne, hsep, s.takeWhile (· == sep), rest, ?_, ?_, hrest⟩
    · rw [List.append_assoc, ← hs, List.takeWhile_append_dropWhile]
    · intro c hc
      simpa using List.mem_takeWhile_imp hc
  · rintro ⟨hne, hsep, lead, rest, rfl, hlead, hrest⟩
    refine ⟨⟨rest, ?_, hsep, hrest⟩, by simpa using hne⟩
    rw [List.append_assoc, List.dropWhile_append_of_pos (by simpa using hlead)]
    cases p with
    | nil => exact absurd rfl hne
    | cons c p => simp [Ne.symm (List.ne_of_not_mem_cons hsep)]

end ApiNodes.Text
