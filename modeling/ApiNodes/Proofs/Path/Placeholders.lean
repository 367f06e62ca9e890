import ApiNodes.Proofs.Path.Plain
import Mathlib.Data.List.Basic

namespace ApiNodes.Api

/-!
# The placeholders of a path

Where the placeholders of a path stand is said without a pass over it: from left to right, an open
brace begins one when a closing brace follows and something stands between the two, and any other
character is itself.

* `placed_iff` — every path has its placeholders in one way, which is `marks`;
* `placeholderNames_eq` — the names that are read off a path are theirs.
-/

variable {c : Char} {s t : List Char} {ps qs : List PathPart}

/-! ### Where placeholders stand -/

/-- A text begins with a placeholder: an open brace, a name, which is not empty and has no closing
    brace in it, and a closing brace. -/
def BeginsPlaceholder (s : List Char) : Prop :=
  ∃ name rest, name ≠ [] ∧ '}' ∉ name ∧ s = '{' :: name ++ '}' :: rest

/-- The parts of a text, from left to right: a placeholder wherever one begins, and a character
    everywhere else. -/
inductive Placed : List Char → List PathPart → Prop
  | nil : Placed [] []
  | hole {name rest : List Char} {ps : List PathPart} : name ≠ [] → '}' ∉ name → Placed rest ps →
    Placed ('{' :: name ++ '}' :: rest) (.hole name :: ps)
  | plain {c : Char} {rest : List Char} {ps : List PathPart} : ¬BeginsPlaceholder (c :: rest) →
    Placed rest ps → Placed (c :: rest) (.plain c :: ps)

/-- A name ends at the first closing brace. -/
theorem eq_of_closed {name name' : List Char} (hname : '}' ∉ name) (hname' : '}' ∉ name')
    (h : name ++ '}' :: s = name' ++ '}' :: t) : name = name' ∧ s = t := by
  have hfirst := Text.takeWhile_ne_eq_iff.mpr ⟨'}' :: s, rfl, hname, by simp⟩
  have hfirst' := Text.takeWhile_ne_eq_iff.mpr ⟨'}' :: t, h, hname', by simp⟩
  obtain rfl := hfirst.symm.trans hfirst'
  exact ⟨rfl, by simpa using h⟩

/-- **Placeholders stand in one way.** -/
theorem Placed.unique (hp : Placed s ps) (hq : Placed s qs) : ps = qs := by
  -- at each spot the second reading can only take what the first one takes
  induction hp generalizing qs with
  | nil =>
    cases hq
    rfl
  | @hole name rest ps hne hname _ ih =>
    generalize hs : '{' :: name ++ '}' :: rest = s at hq
    cases hq with
    | nil => cases hs
    | @hole name' rest' qs hne' hname' hq =>
      obtain ⟨rfl, rfl⟩ := eq_of_closed hname hname' (List.cons.inj hs).2
      rw [ih hq]
    | plain hnone _ => exact absurd ⟨name, rest, hne, hname, hs.symm⟩ hnone
  | @plain c rest ps hnone _ ih =>
    generalize hs : c :: rest = s at hq
    cases hq with
    | nil => cases hs
    | @hole name' rest' qs hne' hname' _ => exact absurd ⟨name', rest', hne', hname', hs⟩ hnone
    | plain _ hq =>
      obtain ⟨rfl, rfl⟩ := List.cons.inj hs
      rw [ih hq]

/-- The text of a part when the names have values. -/
def PathPart.filled (value : String → List Char) : PathPart → List Char
  | plain c => [c]
  | hole name => value (.ofList name)

/-! ### Reading them -/

/-- Two braces with nothing between them are two characters. -/
def PathPart.marks : PathPart → List PathPart
  | plain c => [.plain c]
  | hole [] => [.plain '{', .plain '}']
  | hole name => [.hole name]

/-- The characters and the placeholders of a text. -/
def marks (s : List Char) : List PathPart := (parts s).flatMap PathPart.marks

/-- Ordinary characters stay as they are. -/
theorem flatMap_marks_map_plain (s : List Char) :
    (s.map PathPart.plain).flatMap PathPart.marks = s.map PathPart.plain := by
  rw [List.flatMap_map]
  exact List.flatMap_pure_eq_map PathPart.plain s

/-- What stands before the first brace has no part in the placeholders. -/
theorem marks_append (hs : '{' ∉ s) : marks (s ++ t) = s.map .plain ++ marks t := by
  rw [marks, parts_append hs, List.flatMap_append, flatMap_marks_map_plain, marks]

/-- A name between braces, and what follows. -/
theorem marks_hole (hs : '}' ∉ s) :
    marks ('{' :: s ++ '}' :: t) = (PathPart.hole s).marks ++ marks t := by
  rw [marks, parts_hole hs, List.flatMap_cons, marks]

/-- Where no brace is closed, none that is open or pending begins a placeholder. -/
theorem partsFrom_of_not_mem (hs : '}' ∉ s) : partsFrom none s = s.map .plain ∧
    ∀ seen, partsFrom (some seen) s = .plain '{' :: (seen.reverse ++ s).map .plain := by
  induction s with
  | nil => simp [partsFrom]
  | cons c s ih =>
    rw [List.mem_cons, not_or] at hs
    obtain ⟨hparts, hseen⟩ := ih hs.2
    refine ⟨?_, fun seen => ?_⟩
    · rw [partsFrom]
      split
      · rename_i hc
        rw [hseen [], hc]
        rfl
      · rw [hparts, List.map_cons]
    · rw [partsFrom, if_neg (Ne.symm hs.1), hseen]
      simp

/-- Where no brace is closed there are only characters. -/
theorem marks_of_not_mem (hs : '}' ∉ s) : marks s = s.map .plain := by
  rw [marks, parts, (partsFrom_of_not_mem hs).1, flatMap_marks_map_plain]

/-! ### What is read stands there -/

/-- No placeholder begins where no brace is opened. -/
theorem not_beginsPlaceholder (hc : c ≠ '{') : ¬BeginsPlaceholder (c :: s) := by
  rintro ⟨name, rest, -, -, heq⟩
  exact hc (List.cons.inj heq).1

/-- Where no brace is closed there is no placeholder. -/
theorem placed_of_not_mem (hs : '}' ∉ s) : Placed s (s.map .plain) := by
  induction s with
  | nil => exact .nil
  | cons c s ih =>
    refine .plain ?_ (ih fun hmem => hs (List.mem_cons_of_mem c hmem))
    rintro ⟨name, rest, -, -, heq⟩
    exact hs (heq ▸ by simp)

/-- Nothing stands between two braces: neither of them begins a placeholder. -/
theorem Placed.braces (h : Placed s ps) :
    Placed ('{' :: '}' :: s) (.plain '{' :: .plain '}' :: ps) := by
  refine .plain ?_ (.plain (not_beginsPlaceholder (by decide)) h)
  rintro ⟨name, rest, hne, hname, heq⟩
  -- a name would have to begin with the closing brace
  cases name with
  | nil => exact hne rfl
  | cons d name =>
    obtain rfl : '}' = d := by simpa using (List.cons.inj (List.cons.inj heq).2).1
    exact hname List.mem_cons_self

/-- **What is read stands there.** -/
theorem placed_marks (s : List Char) : Placed s (marks s) := by
  -- a placeholder is read as a whole, so that the rest is shorter by more than a character
  induction hn : s.length using Nat.strong_induction_on generalizing s with
  | _ n ih =>
    cases s with
    | nil => exact .nil
    | cons c s =>
      rw [List.length_cons] at hn
      by_cases hc : c = '{'
      · subst hc
        by_cases hclosed : '}' ∈ s
        · obtain ⟨name, rest, rfl, hname⟩ := List.eq_append_cons_of_mem hclosed
          rw [List.length_append, List.length_cons] at hn
          have hrest : Placed rest (marks rest) := ih rest.length (by omega) rest rfl
          rw [← List.cons_append, marks_hole hname]
          cases name with
          | nil => exact hrest.braces
          | cons d name => exact .hole (List.cons_ne_nil d name) hname hrest
        · have hopen : '}' ∉ '{' :: s := by
            rw [List.mem_cons, not_or]
            exact ⟨by decide, hclosed⟩
          rw [marks_of_not_mem hopen]
          exact placed_of_not_mem hopen
      · rw [← List.singleton_append, marks_append (by simpa using Ne.symm hc)]
        exact .plain (not_beginsPlaceholder hc) (ih s.length (by omega) s rfl)

/-- **Every text has its placeholders in one way.** -/
theorem placed_iff : Placed s ps ↔ ps = marks s := by
  refine ⟨fun h => h.unique (placed_marks s), ?_⟩
  rintro rfl
  exact placed_marks s

/-- A placeholder that is read has a name. -/
theorem name?_of_mem_marks {name : List Char} (h : .hole name ∈ marks s) :
    (PathPart.hole name).name? = some name := by
  obtain ⟨p, -, hmem⟩ := List.mem_flatMap.mp h
  cases p with
  | plain c => simp [PathPart.marks] at hmem
  | hole name' =>
    cases name' with
    | nil => simp [PathPart.marks] at hmem
    | cons d name' =>
      obtain rfl : name = d :: name' := by simpa [PathPart.marks] using hmem
      rfl

/-- The names that are read off a path are those of its placeholders, in order and with
    repetitions. -/
theorem placeholderNames_eq (path : String) :
    placeholderNames path = (marks path.toList).filterMap fun p => p.name?.map String.ofList := by
  rw [placeholderNames, marks]
  induction parts path.toList with
  | nil => rfl
  | cons p ps ih =>
    rw [List.flatMap_cons, List.filterMap_append, ← ih]
    cases p with
    | plain c => rfl
    | hole name => cases name <;> rfl

end ApiNodes.Api
