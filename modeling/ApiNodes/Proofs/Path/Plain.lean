import ApiNodes.Api.Path
import ApiNodes.Proofs.Name.Closed

namespace ApiNodes.Api

open Name (All Wordy)

/-!
# Plain paths

The paths of an ordinary document: under the root, segments of word characters and hyphens,
each of them bare or between braces, and the first one bare.

* `parts_append`, `parts_hole`, `mem_iff_mem_parts` — the parts of a path are those of its pieces,
  and make up the path;
* `plainPart_of_plainPath` — what the parts of a plain path are;
* `head?_segments_of_plainPath` — the first segment is the one that is meant.
-/

variable {c : Char} {s t : List Char} {path : String}

/-! ### Plain segments -/

/-- A character of plain segments. -/
def isPlain (c : Char) : Bool := Name.isWordChar c || c == '-'

/-- A name of word characters and hyphens. -/
structure PlainName (s : List Char) : Prop where
  nonempty : s ≠ []
  plain : All (isPlain · = true) s

/-- A segment: a name, or a placeholder for one. -/
inductive PlainSegment : List Char → Prop
  | name {s : List Char} (h : PlainName s) : PlainSegment s
  | hole {s : List Char} (h : PlainName s) : PlainSegment ('{' :: s ++ ['}'])

/-- A path under the root whose segments are plain, the first one a name. -/
def PlainPath (path : String) : Prop :=
  ∃ first rest, PlainName first ∧ (∀ s ∈ rest, PlainSegment s) ∧
    path.toList = root.toList ++ Text.join ['/'] (first :: rest)

/-- The characters of plain segments are those of labels. -/
theorem isWordy_of_isPlain (h : isPlain c = true) : Name.isWordy c = true := by
  unfold isPlain at h
  unfold Name.isWordy
  rw [h]
  rfl

/-- A plain name is a label. -/
theorem PlainName.wordy (h : PlainName s) : Wordy s :=
  fun c hc => isWordy_of_isPlain (h.plain c hc)

/-- A plain name has none of the other characters. -/
theorem PlainName.not_mem (h : PlainName s) (hc : isPlain c = false) : c ∉ s := by
  intro hmem
  rw [h.plain c hmem] at hc
  cases hc

/-! ### Parts -/

/-- Text without an opening brace is made of ordinary characters. -/
theorem parts_append (hs : '{' ∉ s) : parts (s ++ t) = s.map .plain ++ parts t := by
  induction s with
  | nil => rfl
  | cons c s ih =>
    rw [List.mem_cons, not_or] at hs
    have ih := ih hs.2
    simp only [parts] at ih ⊢
    rw [List.cons_append, partsFrom, if_neg (Ne.symm hs.1), ih]
    rfl

/-- An open brace and what follows up to a closing one is a placeholder. -/
theorem parts_hole (hs : '}' ∉ s) : parts ('{' :: s ++ '}' :: t) = .hole s :: parts t := by
  have key : ∀ (s seen : List Char), '}' ∉ s →
      partsFrom (some seen) (s ++ '}' :: t) = .hole (seen.reverse ++ s) :: parts t := by
    intro s
    induction s with
    | nil =>
      intro seen _
      simp [partsFrom, parts]
    | cons c s ih =>
      intro seen hs
      rw [List.mem_cons, not_or] at hs
      rw [List.cons_append, partsFrom, if_neg (Ne.symm hs.1), ih (c :: seen) hs.2]
      simp
  rw [parts, List.cons_append, partsFrom, if_pos rfl, key s [] hs]
  rfl

/-- The characters of a path are those of its parts. -/
theorem mem_iff_mem_parts : c ∈ s ↔ ∃ p ∈ parts s, c ∈ p.text := by
  have htext := flatMap_text_partsFrom none s
  rw [List.nil_append] at htext
  rw [← List.mem_flatMap, parts, htext]

/-- The characters of a placeholder. -/
theorem mem_text_hole {name : List Char} :
    c ∈ (PathPart.hole name).text ↔ c = '{' ∨ c ∈ name ∨ c = '}' := by
  simp [PathPart.text]

/-- A part of a plain path: a character of a segment, a slash, or a named placeholder. -/
def PlainPart : PathPart → Prop
  | .plain c => isPlain c = true ∨ c = '/'
  | .hole name => PlainName name

/-- The parts of a segment and of what follows it. -/
theorem PlainSegment.parts_append (h : PlainSegment s) (t : List Char) :
    ∃ ps, (∀ p ∈ ps, PlainPart p) ∧ parts (s ++ t) = ps ++ parts t := by
  cases h with
  | name h =>
    refine ⟨s.map .plain, fun p hp => ?_, Api.parts_append (h.not_mem (by decide))⟩
    obtain ⟨c, hc, rfl⟩ := List.mem_map.mp hp
    exact .inl (h.plain c hc)
  | @hole s h =>
    refine ⟨[.hole s], fun p hp => ?_, ?_⟩
    · obtain rfl := List.mem_singleton.mp hp
      exact h
    · have hparts := parts_hole (t := t) (h.not_mem (c := '}') (by decide))
      simpa using hparts

/-- The parts of segments with slashes between them. -/
theorem plainPart_of_mem_join {segments : List (List Char)} (h : ∀ s ∈ segments, PlainSegment s)
    {p : PathPart} (hp : p ∈ parts (Text.join ['/'] segments)) : PlainPart p := by
  induction segments using Text.join.induct with
  | case1 => cases hp
  | case2 s =>
    obtain ⟨ps, hps, heq⟩ := (h s List.mem_cons_self).parts_append []
    rw [List.append_nil, show parts [] = [] from rfl, List.append_nil] at heq
    rw [Text.join, heq] at hp
    exact hps p hp
  | case3 s s' rest ih =>
    obtain ⟨ps, hps, heq⟩ := (h s List.mem_cons_self).parts_append
      (['/'] ++ Text.join ['/'] (s' :: rest))
    rw [Text.join, List.append_assoc, heq, Api.parts_append (by decide), List.mem_append,
      List.mem_append] at hp
    rcases hp with hp | hp | hp
    · exact hps p hp
    · obtain rfl : p = .plain '/' := by simpa using hp
      exact .inr rfl
    · exact ih (fun t ht => h t (List.mem_cons_of_mem s ht)) hp

/-- The parts of a plain path. -/
theorem plainPart_of_plainPath (h : PlainPath path) {p : PathPart}
    (hp : p ∈ parts path.toList) : PlainPart p := by
  obtain ⟨first, rest, hfirst, hrest, hpath⟩ := h
  rw [hpath, Api.parts_append (by decide), List.mem_append] at hp
  rcases hp with hp | hp
  · obtain ⟨c, hc, rfl⟩ := List.mem_map.mp hp
    have hall : root.toList.all (fun c => isPlain c || c == '/') = true := by decide
    have hc := List.all_eq_true.mp hall c hc
    rwa [Bool.or_eq_true, beq_iff_eq] at hc
  · refine plainPart_of_mem_join (fun s hs => ?_) hp
    rcases List.mem_cons.mp hs with rfl | hs
    · exact .name hfirst
    · exact hrest s hs

/-- The names of the placeholders of a plain path are plain. -/
theorem plainName_of_mem_placeholderNames (h : PlainPath path) {name : String}
    (hname : name ∈ placeholderNames path) : PlainName name.toList := by
  obtain ⟨p, hp, hname⟩ := List.mem_filterMap.mp hname
  obtain ⟨chars, hchars, rfl⟩ := Option.map_eq_some_iff.mp hname
  have hpart := plainPart_of_plainPath h hp
  rw [String.toList_ofList]
  cases p with
  | plain c => cases hchars
  | hole name =>
    cases name with
    | nil => cases hchars
    | cons c name =>
      cases hchars
      exact hpart

/-- The characters of a plain path. -/
theorem mem_plainPath (h : PlainPath path) (hc : c ∈ path.toList) :
    isPlain c = true ∨ c = '/' ∨ c = '{' ∨ c = '}' := by
  obtain ⟨p, hp, hc⟩ := mem_iff_mem_parts.mp hc
  have hpart := plainPart_of_plainPath h hp
  cases p with
  | plain d =>
    obtain rfl : c = d := by simpa [PathPart.text] using hc
    rcases hpart with hpart | hpart
    · exact .inl hpart
    · exact .inr (.inl hpart)
  | hole name =>
    rcases mem_text_hole.mp hc with hc | hc | hc
    · exact .inr (.inr (.inl hc))
    · exact .inl (hpart.plain c hc)
    · exact .inr (.inr (.inr hc))

/-! ### First segments -/

/-- The first segment of a plain path. -/
theorem head?_segments_of_plainPath (h : PlainPath path) :
    ∃ first, (segments path).head? = some first ∧ PlainName first.toList := by
  have hquery : path.toList.takeWhile (· != '?') = path.toList := by
    rw [List.takeWhile_eq_self_iff]
    intro c hc
    rw [bne_iff_ne]
    rintro rfl
    exact absurd (mem_plainPath h hc) (by decide)
  obtain ⟨first, rest, hfirst, -, hpath⟩ := h
  have hslash : '/' ∉ first := hfirst.not_mem (by decide)
  refine ⟨.ofList first, ?_, by rwa [String.toList_ofList]⟩
  -- the first segment lasts to the next slash, or to the end
  have htail : ∃ tail, Text.join ['/'] (first :: rest) = first ++ tail ∧
      ∀ c ∈ tail.head?, c = '/' := by
    cases rest with
    | nil => exact ⟨[], by simp [Text.join], by simp⟩
    | cons s rest => exact ⟨['/'] ++ Text.join ['/'] (s :: rest), by simp [Text.join], by simp⟩
  obtain ⟨tail, hjoin, hhead⟩ := htail
  have hpiece := Text.head?_filter_cut.mpr
    ⟨hfirst.nonempty, hslash, [], tail, rfl, by simp, hhead⟩
  rw [List.nil_append] at hpiece
  unfold segments
  simp only [hquery]
  rw [hpath, hjoin, Text.after?_eq_some_iff.mpr rfl]
  simp only [List.head?_map, hpiece, Option.map_some]

end ApiNodes.Api
