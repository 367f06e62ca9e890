import ApiNodes.Proofs.Name.Closed

namespace ApiNodes.Name

/-!
# Names that are identifiers

The name of a resource is the camel case of a path segment, whatever the characters of the
segment are.  `SpellsIdentifier` says of a text that its words make an identifier.

* `isIdentifier_camelChars_iff` — the camel case of a text is an identifier when its words make
  one, and only then;
* `isIdentifier_handlerClass`, `isIdentifier_propertiesConstant` — the class and the constant of
  a resource are identifiers when the name of the resource is one.
-/

variable {c d : Char} {s t w : List Char} {v ws : List (List Char)}

/-! ### Identifiers -/

/-- A text is an identifier: it begins with an ASCII letter or an underscore, and goes on with
    ASCII letters, digits and underscores. -/
def IsIdentifier (s : List Char) : Prop :=
  ∃ c r, s = c :: r ∧ (isLetter c = true ∨ c = '_') ∧ All (isWordChar · = true) r

/-- An identifier goes on with word characters. -/
theorem IsIdentifier.append (hs : IsIdentifier s) (ht : All (isWordChar · = true) t) :
    IsIdentifier (s ++ t) := by
  obtain ⟨c, r, rfl, hc, hr⟩ := hs
  exact ⟨c, r ++ t, rfl, hc, hr.append ht⟩

/-- An identifier is made of word characters. -/
theorem IsIdentifier.all (hs : IsIdentifier s) : All (isWordChar · = true) s := by
  obtain ⟨c, r, rfl, hc, hr⟩ := hs
  intro d hd
  rcases List.mem_cons.mp hd with rfl | hd
  · rcases hc with hc | rfl
    · simp [isWordChar, hc]
    · decide
  · exact hr d hd

/-- What is left of a text from the first character of a kind on begins with one of that kind. -/
theorem first_of_dropWhile {p : Char → Bool} (h : s.dropWhile (fun d => !p d) = c :: t) :
    p c = true := by
  have hfirst := List.head?_dropWhile_not (fun d => !p d) s
  rw [h] at hfirst
  simpa using hfirst

/-! ### Word characters -/

/-- The word characters that are inside of words: ASCII letters and digits. -/
def isInner (c : Char) : Bool := isLetter c || isDigit c

/-- Word characters are ASCII, and not null. -/
theorem ascii_of_isWordChar (h : isWordChar c = true) : 0 < c.toNat ∧ c.toNat < 128 := by
  have hascii : c.toNat < 128 := ascii_of_isWordy (by simp [isWordy, h])
  refine ⟨?_, hascii⟩
  exact Text.ascii_induction (P := fun c => isWordChar c = true → 0 < c.toNat) (by decide) hascii h

/-- A word character that separates no words is a letter or a digit. -/
theorem isInner_of_not_isSeparator (h : isWordChar c = true) (hc : isSeparator c = false) :
    isInner c = true := by
  simp only [isWordChar, Bool.or_eq_true, beq_iff_eq] at h
  rcases h with h | rfl
  · simpa [isInner] using h
  · cases hc

/-- A letter or a digit separates no words. -/
theorem not_isSeparator_of_isInner (h : isInner c = true) :
    isWordChar c = true ∧ isSeparator c = false := by
  have hword : isWordChar c = true := by
    simp only [isInner, Bool.or_eq_true] at h
    simp [isWordChar, h]
  refine ⟨hword, ?_⟩
  exact Text.ascii_induction (P := fun c => isInner c = true → isSeparator c = false) (by decide)
    (ascii_of_isWordChar hword).2 h

/-- What has a lower case of word characters. -/
theorem of_all_lowerChar (h : All (isWordChar · = true) (Text.lowerChar c)) :
    isWordChar c = true ∨ c = Text.kelvin := by
  by_cases hc : c.toNat < 128
  · rw [Text.lowerChar, if_pos hc] at h
    exact .inl (Text.ascii_induction
      (P := fun c => isWordChar c.toLower = true → isWordChar c = true) (by decide) hc
      (h _ (List.mem_singleton_self _)))
  · exact .inr (Text.eq_of_lowerChar_ascii (by omega) fun d hd => ascii_of_isWordChar (h d hd))

/-- What has an upper case of word characters. -/
theorem of_all_upperChar (h : All (isWordChar · = true) (Text.upperChar c)) :
    isWordChar c = true ∨ c ∈ Text.ligatures := by
  by_cases hc : c.toNat < 128
  · rw [Text.upperChar, if_pos hc] at h
    exact .inl (Text.ascii_induction
      (P := fun c => isWordChar c.toUpper = true → isWordChar c = true) (by decide) hc
      (h _ (List.mem_singleton_self _)))
  · exact .inr (Text.mem_of_upperChar_ascii (by omega) fun d hd => ascii_of_isWordChar (h d hd))

/-- The upper case of what goes on with a name is made of letters and digits. -/
theorem all_upperChar (h : isInner c = true ∨ c ∈ Text.ligatures) :
    All (isInner · = true) (Text.upperChar c) := by
  rcases h with h | h
  · have hc := (ascii_of_isWordChar (not_isSeparator_of_isInner h).1).2
    rw [Text.upperChar, if_pos hc]
    intro d hd
    obtain rfl := List.mem_singleton.mp hd
    exact Text.ascii_induction (P := fun c => isInner c = true → isInner c.toUpper = true)
      (by decide) hc h
  · have hall : Text.ligatures.all (fun c => (Text.upperChar c).all isInner) = true := by
      decide +kernel
    exact List.all_eq_true.mp (List.all_eq_true.mp hall c h)

/-- The lower case of what begins a name is a small letter. -/
theorem lowerChar_of_begins (h : isLetter c = true ∨ c = Text.kelvin) :
    ∃ d, Text.lowerChar c = [d] ∧ isSmall d = true := by
  rcases h with h | rfl
  · have hc := ascii_of_isLetter h
    refine ⟨c.toLower, by rw [Text.lowerChar, if_pos hc], ?_⟩
    exact Text.ascii_induction (P := fun c => isLetter c = true → isSmall c.toLower = true)
      (by decide) hc h
  · exact ⟨'k', by decide +kernel, by decide⟩

/-! ### Words that make an identifier -/

/-- An identifier can begin with a word: its initial is an ASCII letter once it is made small, and
    the rest are word characters. -/
def Begins (w : List Char) : Prop :=
  ∃ c r, w = c :: r ∧ (isLetter c = true ∨ c = Text.kelvin) ∧ All (isWordChar · = true) r

/-- An identifier can go on with a word: its initial is of word characters once it is made a
    capital, and the rest are word characters. -/
def GoesOn (w : List Char) : Prop :=
  ∃ c r, w = c :: r ∧ (isWordChar c = true ∨ c ∈ Text.ligatures) ∧ All (isWordChar · = true) r

/-- The words of a text make an identifier: there are some, the first can begin one, and each of
    the others can go on with it. -/
def SpellsIdentifier (s : List Char) : Prop :=
  ∃ w ws, words s = w :: ws ∧ Begins w ∧ ∀ v ∈ ws, GoesOn v

/-- Words are not empty. -/
theorem ne_nil_of_mem_words (h : w ∈ words s) : w ≠ [] := by
  -- a separator ends the word before it, if there is one; another character lengthens it
  induction s using words.induct generalizing w with
  | case1 => simp [words] at h
  | case2 d hd => simp [words, hd] at h
  | case3 d hd =>
    simp only [words, hd, Bool.false_eq_true, if_false, List.mem_singleton] at h
    simp [h]
  | case4 d e r hd ih =>
    rw [words, if_pos hd] at h
    exact ih h
  | case5 d e r hd he ih =>
    rw [words, if_neg hd, if_pos he] at h
    rcases List.mem_cons.mp h with rfl | h
    · simp
    · exact ih h
  | case6 d e r hd he hr ih =>
    rw [words, if_neg hd, if_neg he, hr, List.mem_singleton] at h
    simp [h]
  | case7 d e r hd he v vs hr ih =>
    rw [words, if_neg hd, if_neg he, hr] at h
    rcases List.mem_cons.mp h with rfl | h
    · simp
    · exact ih (hr ▸ List.mem_cons_of_mem v h)

/-- A text without separators is its only word. -/
theorem words_of_solid (hne : s ≠ []) (h : All (isSeparator · = false) s) : words s = [s] := by
  induction s using words.induct with
  | case1 => exact absurd rfl hne
  | case2 d hd => simp [h d List.mem_cons_self] at hd
  | case3 d hd => rw [words, if_neg hd]
  | case4 d e r hd ih => simp [h d List.mem_cons_self] at hd
  | case5 d e r hd he ih => simp [h e (List.mem_cons_of_mem d List.mem_cons_self)] at he
  | case6 d e r hd he hr ih =>
    have hrest := ih (List.cons_ne_nil e r) (h.subset fun c hc => List.mem_cons_of_mem d hc)
    rw [hr] at hrest
    cases hrest
  | case7 d e r hd he v vs hr ih =>
    have hrest := ih (List.cons_ne_nil e r) (h.subset fun c hc => List.mem_cons_of_mem d hc)
    rw [words, if_neg hd, if_neg he, hrest]

/-- A text of letters and digits is its only word. -/
theorem words_of_inner (hne : s ≠ []) (h : All (isInner · = true) s) : words s = [s] :=
  words_of_solid hne fun c hc => (not_isSeparator_of_isInner (h c hc)).2

/-! ### Camel case -/

/-- The lower case of one character that is no capital sigma. -/
theorem lowerChars_singleton (h : c ≠ Text.capitalSigma) :
    Text.lowerChars [c] = Text.lowerChar c := by
  rw [Text.lowerChars, Text.lowerFrom, if_neg h, Text.lowerFrom, List.append_nil]

/-- The initial of a name is made small. -/
theorem lowerChars_of_begins (h : isLetter c = true ∨ c = Text.kelvin) :
    ∃ d, Text.lowerChars [c] = [d] ∧ isSmall d = true := by
  obtain ⟨d, hd, hsmall⟩ := lowerChar_of_begins h
  refine ⟨d, ?_, hsmall⟩
  rw [lowerChars_singleton, hd]
  rintro rfl
  rcases h with h | h <;> exact absurd h (by decide)

/-- What can go on with a name goes on with letters and digits, unless a separator is in it. -/
theorem all_capitalizeChars (h : GoesOn w) (hw : ∀ c ∈ w, isSeparator c = false) :
    All (isInner · = true) (Text.capitalizeChars w) := by
  obtain ⟨c, r, rfl, hc, hr⟩ := h
  refine All.append (all_upperChar (hc.imp_left fun hc => ?_)) fun d hd => ?_
  · exact isInner_of_not_isSeparator hc (hw c List.mem_cons_self)
  · exact isInner_of_not_isSeparator (hr d hd) (hw d (List.mem_cons_of_mem c hd))

/-- Words that make an identifier make one of letters and digits, with a small initial. -/
theorem camelChars_of_spells (h : SpellsIdentifier s) :
    ∃ d r, camelChars s = d :: r ∧ isSmall d = true ∧ All (isInner · = true) r := by
  obtain ⟨w, ws, hwords, ⟨c, r, rfl, hc, hr⟩, hws⟩ := h
  have hsep {v} (hv : v ∈ words s) {c} (hc : c ∈ v) : isSeparator c = false := (mem_words hv hc).2
  obtain ⟨d, hd, hsmall⟩ := lowerChars_of_begins hc
  refine ⟨d, r ++ ws.flatMap Text.capitalizeChars, ?_, hsmall, All.append (fun e he => ?_) ?_⟩
  · rw [camelChars, hwords]
    simp [hd]
  · exact isInner_of_not_isSeparator (hr e he)
      (hsep (hwords ▸ List.mem_cons_self) (List.mem_cons_of_mem c he))
  · intro e he
    obtain ⟨v, hv, he⟩ := List.mem_flatMap.mp he
    exact all_capitalizeChars (hws v hv)
      (fun _ => hsep (hwords ▸ List.mem_cons_of_mem (c :: r) hv)) e he

/-- What is the initial of an identifier when it is made small can begin one. -/
theorem begins_of_lowerChar {r others : List Char} (hc : isSeparator c = false)
    (hall : All (isWordChar · = true) (Text.lowerChar c))
    (heq : Text.lowerChar c ++ others = d :: r) (hd : isLetter d = true ∨ d = '_') :
    isLetter c = true ∨ c = Text.kelvin := by
  refine (of_all_lowerChar hall).imp_left fun hword => ?_
  -- a digit stays what it is, and begins no identifier
  have hascii := (ascii_of_isWordChar hword).2
  rw [Text.lowerChar, if_pos hascii] at heq
  obtain ⟨rfl, -⟩ := List.cons.inj heq
  exact Text.ascii_induction (P := fun c => isInner c = true →
    (isLetter c.toLower = true ∨ c.toLower = '_') → isLetter c = true) (by decide) hascii
    (isInner_of_not_isSeparator hword hc) hd

/-- A word that is made of word characters once its initial is a capital can go on with a name. -/
theorem goesOn_of_all (hne : w ≠ [])
    (h : All (isWordChar · = true) (Text.capitalizeChars w)) : GoesOn w := by
  obtain ⟨c, r, rfl⟩ := List.exists_cons_of_ne_nil hne
  exact ⟨c, r, rfl, of_all_upperChar (h.subset fun d hd => List.mem_append_left _ hd),
    h.subset fun d hd => List.mem_append_right _ hd⟩

/-- **The camel case of a text is an identifier** when the words of the text make one, and only
    then. -/
theorem isIdentifier_camelChars_iff : IsIdentifier (camelChars s) ↔ SpellsIdentifier s := by
  constructor
  · intro h
    have hall := h.all
    obtain ⟨first, rest, hcamel, hfirst, -⟩ := h
    rw [camelChars] at hall hcamel
    cases hwords : words s with
    | nil => simp [hwords] at hcamel
    | cons w ws =>
      simp only [hwords] at hall hcamel
      have hsep {v} (hv : v ∈ w :: ws) : v ≠ [] ∧ ∀ c ∈ v, isSeparator c = false :=
        ⟨ne_nil_of_mem_words (hwords ▸ hv), fun c hc => (mem_words (hwords ▸ hv) hc).2⟩
      obtain ⟨c, r, rfl⟩ := List.exists_cons_of_ne_nil (hsep List.mem_cons_self).1
      simp only [List.take_succ_cons, List.take_zero, List.drop_succ_cons, List.drop_zero]
        at hall hcamel
      have hlower : All (isWordChar · = true) (Text.lowerChars [c]) :=
        hall.subset fun d hd => List.mem_append_left _ (List.mem_append_left _ hd)
      -- the small letter of a capital sigma depends on what is before it, and is no word character
      have hsigma : c ≠ Text.capitalSigma := by
        rintro rfl
        exact absurd (List.all_eq_true.mpr hlower) (by decide +kernel)
      rw [lowerChars_singleton hsigma] at hlower hcamel
      rw [List.append_assoc] at hcamel
      refine ⟨c :: r, ws, hwords, ⟨c, r, rfl, ?_, ?_⟩, fun v hv => ?_⟩
      · have hc := (hsep List.mem_cons_self).2 c List.mem_cons_self
        exact begins_of_lowerChar hc hlower hcamel hfirst
      · exact hall.subset fun d hd => List.mem_append_left _ (List.mem_append_right _ hd)
      · exact goesOn_of_all (hsep (List.mem_cons_of_mem _ hv)).1 (hall.subset fun d hd =>
          List.mem_append_right _ (List.mem_flatMap.mpr ⟨v, hv, hd⟩))
  · intro h
    obtain ⟨d, r, hcamel, hsmall, hr⟩ := camelChars_of_spells h
    refine ⟨d, r, hcamel, .inl (by simp [isLetter, hsmall]), fun c hc => ?_⟩
    exact (not_isSeparator_of_isInner (hr c hc)).1

/-! ### Names of resources -/

/-- The stem of a path segment, of which the name of the resource is the camel case: a final
    `-api` is dropped, and the last hyphenated piece is put in the singular. -/
def stem (segment : String) : List Char :=
  Text.join ['-'] (mapLast singularChars (Text.cut '-' (Text.dropTail "-api".toList segment.toList)))

/-- **The name of a resource is an identifier** when the words of the stem make one, and only
    then. -/
theorem isIdentifier_resource_iff {segment : String} :
    IsIdentifier (resource segment).toList ↔ SpellsIdentifier (stem segment) := by
  rw [resource, String.toList_ofList]
  exact isIdentifier_camelChars_iff

/-- A name that is an identifier in camel case is its own camel case. -/
theorem camelChars_camelChars (h : SpellsIdentifier s) :
    camelChars (camelChars s) = camelChars s := by
  obtain ⟨d, r, hcamel, hsmall, hr⟩ := camelChars_of_spells h
  have hinner : All (isInner · = true) (d :: r) := by
    intro c hc
    rcases List.mem_cons.mp hc with rfl | hc
    · simp [isInner, isLetter, hsmall]
    · exact hr c hc
  have hletter : isLetter d = true := by simp [isLetter, hsmall]
  have hlower : Text.lowerChar d = [d] := by
    rw [Text.lowerChar, if_pos (ascii_of_isLetter hletter)]
    have hsame := Text.ascii_induction (P := fun c => isSmall c = true → c.toLower = c) (by decide)
      (ascii_of_isLetter hletter) hsmall
    rw [hsame]
  rw [hcamel, camelChars, words_of_inner (List.cons_ne_nil d r) hinner]
  have hsigma : d ≠ Text.capitalSigma := by
    rintro rfl
    exact absurd hletter (by decide)
  simp [lowerChars_singleton hsigma, hlower]

/-- The class of a resource is an identifier when the name of the resource is one, and is longer
    than the ending of its name. -/
theorem isIdentifier_handlerClass {name : String} (h : SpellsIdentifier s)
    (hname : name.toList = camelChars s) :
    IsIdentifier (handlerClass name).toList ∧ handlerClass name ≠ "ResourceHandler" := by
  obtain ⟨d, r, hcamel, hsmall, hr⟩ := camelChars_of_spells h
  have hletter : isLetter d = true := by simp [isLetter, hsmall]
  have hascii := ascii_of_isLetter hletter
  have hpascal : (pascal name).toList = d.toUpper :: r := by
    rw [pascal, String.toList_ofList, pascalChars, hname, camelChars_camelChars h, hcamel,
      Text.capitalizeChars, Text.upperChar, if_pos hascii, List.singleton_append]
  constructor
  · rw [handlerClass, String.toList_append, hpascal]
    refine IsIdentifier.append ⟨d.toUpper, r, rfl, .inl ?_, fun c hc => ?_⟩
      fun c hc => List.all_eq_true.mp
        (show "ResourceHandler".toList.all isWordChar = true by decide) c hc
    · exact Text.ascii_induction (P := fun c => isLetter c = true → isLetter c.toUpper = true)
        (by decide) hascii hletter
    · exact (not_isSeparator_of_isInner (hr c hc)).1
  · intro heq
    have hlength := congrArg (fun s => s.toList.length) heq
    simp [handlerClass, hpascal] at hlength

/-- The constant of a resource is an identifier when the name of the resource is one. -/
theorem isIdentifier_propertiesConstant {name : String} (h : IsIdentifier name.toList) :
    IsIdentifier (propertiesConstant name).toList := by
  rw [propertiesConstant, String.toList_append]
  exact h.append fun c hc => List.all_eq_true.mp
    (show "Properties".toList.all isWordChar = true by decide) c hc

end ApiNodes.Name
