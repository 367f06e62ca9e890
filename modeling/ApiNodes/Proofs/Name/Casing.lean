import ApiNodes.Proofs.Name.Identifier

namespace ApiNodes.Name

/-!
# Cases of ASCII names

Names are put into camel case and Pascal case, which differ in the first letter, and into the
hyphenated case of files.  On ASCII, where every letter has one other case, camel case is recognised
by its characters (`IsCamel`), and nothing but the case of the first letter is lost on the way to
Pascal case and back.

* `isCamel_camelChars`, `camelChars_of_isCamel` — camel case is made, and kept where it is;
* `camel_and_pascal` — the two cases undo one another;
* `handlerClass_inj`, `propertiesConstant_inj` — different names have different classes and
  constants;
* `hyphenated_pascal_iff` — when the file of a name is also that of its Pascal case.
-/

variable {c d : Char} {s t r w : List Char} {ws : List (List Char)} {m n x : String}

/-! ### ASCII characters -/

/-- The ASCII characters. -/
theorem closed_ascii : Closed (·.toNat < 128) where
  upper {c d} hc hd := by
    rw [Text.upperChar, if_pos hc, List.mem_singleton] at hd
    subst hd
    exact Text.ascii_induction (P := fun c => c.toUpper.toNat < 128) (by decide) hc
  lower {c d} hc hd := by
    rw [Text.lowerChar, if_pos hc, List.mem_singleton] at hd
    subst hd
    exact Text.ascii_induction (P := fun c => c.toLower.toNat < 128) (by decide) hc
  sigma h := absurd h (by decide)
  letter := ascii_of_isLetter
  space := by decide

/-- No other case of a character separates words. -/
theorem not_isSeparator_cases (hc : c.toNat < 128) (h : isSeparator c = false) :
    isSeparator c.toUpper = false ∧ isSeparator c.toLower = false :=
  Text.ascii_induction (P := fun c => isSeparator c = false →
    isSeparator c.toUpper = false ∧ isSeparator c.toLower = false) (by decide) hc h

/-- The lower case of a character is its own. -/
theorem toLower_toLower (hc : c.toNat < 128) : c.toLower.toLower = c.toLower :=
  Text.ascii_induction (P := fun c => c.toLower.toLower = c.toLower) (by decide) hc

/-- A character that is its own lower case is that of its upper case. -/
theorem toLower_toUpper (hc : c.toNat < 128) (h : c.toLower = c) : c.toUpper.toLower = c :=
  Text.ascii_induction (P := fun c => c.toLower = c → c.toUpper.toLower = c) (by decide) hc h

/-- A capital initial of an ASCII text. -/
theorem capitalizeChars_cons (hc : c.toNat < 128) (r : List Char) :
    Text.capitalizeChars (c :: r) = c.toUpper :: r := by
  rw [Text.capitalizeChars, Text.upperChar, if_pos hc, List.singleton_append]

/-- A capital initial separates no words either. -/
theorem solid_capitalizeChars (hs : Text.IsAscii s) (h : All (isSeparator · = false) s) :
    All (isSeparator · = false) (Text.capitalizeChars s) := by
  cases s with
  | nil => exact h
  | cons c r =>
    have hc := hs c List.mem_cons_self
    rw [capitalizeChars_cons hc]
    exact List.forall_mem_cons.mpr
      ⟨(not_isSeparator_cases hc (h c List.mem_cons_self)).1, (List.forall_mem_cons.mp h).2⟩

/-! ### Camel case -/

/-- An ASCII text in camel case: it has no separators, and its initial is no capital. -/
structure IsCamel (s : List Char) : Prop where
  ascii : Text.IsAscii s
  solid : All (isSeparator · = false) s
  initial : ∀ c ∈ s.head?, c.toLower = c

/-- The camel case of an ASCII text, by its words. -/
theorem camelChars_of_words (hs : Text.IsAscii s) (h : words s = (c :: r) :: ws) :
    camelChars s = c.toLower :: (r ++ ws.flatMap Text.capitalizeChars) := by
  have hc : Text.IsAscii [c] := by
    intro d hd
    obtain rfl := List.mem_singleton.mp hd
    exact hs d (mem_words (h ▸ List.mem_cons_self) List.mem_cons_self).1
  rw [camelChars, h]
  simp only [List.take_succ_cons, List.take_zero, List.drop_succ_cons, List.drop_zero,
    Text.lowerChars_of_ascii hc, List.map_cons, List.map_nil, List.cons_append, List.nil_append]

/-- **The camel case of an ASCII text is in camel case.** -/
theorem isCamel_camelChars (hs : Text.IsAscii s) : IsCamel (camelChars s) := by
  have hword {v : List Char} (hv : v ∈ words s) :
      Text.IsAscii v ∧ All (isSeparator · = false) v :=
    ⟨fun c hc => hs c (mem_words hv hc).1, fun c hc => (mem_words hv hc).2⟩
  -- separators leave no trace, and each word but the first gets a capital
  cases hwords : words s with
  | nil =>
    have hnil : camelChars s = [] := by rw [camelChars, hwords]
    rw [hnil]
    exact ⟨by simp [Text.IsAscii], by simp [All], by simp⟩
  | cons w ws =>
    have hw : w ∈ words s := hwords ▸ List.mem_cons_self
    obtain ⟨c, r, rfl⟩ := List.exists_cons_of_ne_nil (ne_nil_of_mem_words hw)
    have hascii := (hword hw).1 c List.mem_cons_self
    have hsolid := List.forall_mem_cons.mp (hword hw).2
    refine ⟨closed_ascii.camelChars hs, ?_, ?_⟩
    · rw [camelChars_of_words hs hwords]
      refine List.forall_mem_cons.mpr
        ⟨(not_isSeparator_cases hascii hsolid.1).2, All.append hsolid.2 fun d hd => ?_⟩
      obtain ⟨v, hv, hd⟩ := List.mem_flatMap.mp hd
      have hv : v ∈ words s := hwords ▸ List.mem_cons_of_mem _ hv
      exact solid_capitalizeChars (hword hv).1 (hword hv).2 d hd
    · rw [camelChars_of_words hs hwords]
      intro d hd
      obtain rfl := Option.some.inj hd
      exact toLower_toLower hascii

/-- **What is in camel case stays as it is.** -/
theorem camelChars_of_isCamel (h : IsCamel s) : camelChars s = s := by
  cases s with
  | nil => rfl
  | cons c r =>
    rw [camelChars_of_words h.ascii (words_of_solid (List.cons_ne_nil c r) h.solid),
      h.initial c rfl, List.flatMap_nil, List.append_nil]

/-- The Pascal case of what is in camel case has a capital initial. -/
theorem pascalChars_of_isCamel (h : IsCamel s) : pascalChars s = Text.capitalizeChars s := by
  rw [pascalChars, camelChars_of_isCamel h]

/-- Pascal case is undone by camel case. -/
theorem camelChars_capitalizeChars (h : IsCamel s) : camelChars (Text.capitalizeChars s) = s := by
  cases s with
  | nil => rfl
  | cons c r =>
    have hc := h.ascii c List.mem_cons_self
    have hsolid := solid_capitalizeChars h.ascii h.solid
    have hascii := closed_ascii.capitalizeChars h.ascii
    rw [capitalizeChars_cons hc] at hsolid hascii ⊢
    rw [camelChars_of_words hascii (words_of_solid (List.cons_ne_nil _ r) hsolid),
      toLower_toUpper hc (h.initial c rfl), List.flatMap_nil, List.append_nil]

/-- **Camel case and Pascal case undo one another**, and neither changes what is in it. -/
theorem camel_and_pascal (h : Text.IsAscii x.toList) :
    camel (camel x) = camel x ∧ camel (pascal x) = camel x ∧ pascal (camel x) = pascal x := by
  have hcamel := isCamel_camelChars h
  refine ⟨?_, ?_, ?_⟩
  · rw [camel, camel, String.toList_ofList, camelChars_of_isCamel hcamel]
  · rw [camel, camel, pascal, String.toList_ofList, pascalChars, camelChars_capitalizeChars hcamel]
  · rw [pascal, pascal, camel, String.toList_ofList, pascalChars, camelChars_of_isCamel hcamel,
      pascalChars]

/-! ### Names of resources -/

/-- The name of the resource of an ASCII segment is in camel case. -/
theorem isCamel_resource {segment : String} (h : Text.IsAscii segment.toList) :
    IsCamel (resource segment).toList := by
  rw [resource, String.toList_ofList, resourceChars]
  exact isCamel_camelChars (closed_ascii.stem (by decide) h)

/-- **Different names in camel case have different classes.** -/
theorem handlerClass_inj (hm : IsCamel m.toList) (hn : IsCamel n.toList) :
    handlerClass m = handlerClass n ↔ m = n := by
  constructor
  · intro h
    have hpascal : Text.capitalizeChars m.toList = Text.capitalizeChars n.toList := by
      have h := congrArg String.toList h
      rw [handlerClass, handlerClass, String.toList_append, String.toList_append,
        List.append_cancel_right_eq, pascal, pascal, String.toList_ofList, String.toList_ofList,
        pascalChars_of_isCamel hm, pascalChars_of_isCamel hn] at h
      exact h
    rw [← String.toList_inj, ← camelChars_capitalizeChars hm, hpascal,
      camelChars_capitalizeChars hn]
  · rintro rfl
    rfl

/-- Only the class of the empty name is the interface that all classes implement. -/
theorem handlerClass_eq_interface_iff (hn : IsCamel n.toList) :
    handlerClass n = "ResourceHandler" ↔ n = "" :=
  handlerClass_inj (n := "") hn ⟨by simp [Text.IsAscii], by simp [All], by simp⟩

/-- **Different names have different constants.** -/
theorem propertiesConstant_inj : propertiesConstant m = propertiesConstant n ↔ m = n := by
  rw [propertiesConstant, propertiesConstant, ← String.toList_inj, String.toList_append,
    String.toList_append, List.append_cancel_right_eq, String.toList_inj]

/-! ### Names of files -/

/-- A character that is no small letter is not the first of a hump. -/
theorem splitHumps_cons (hc : isSmall c = false) (separator : Char) (r : List Char) :
    splitHumps separator (c :: r) = c :: splitHumps separator r := by
  cases r with
  | nil => rfl
  | cons d r => rw [splitHumps, if_neg (by simp [hc])]

/-- A small letter is the first of a hump in front of a capital. -/
theorem splitHumps_small (hc : isSmall c = true) (separator : Char) (r : List Char) :
    splitHumps separator (c :: r) =
      c :: ((if r.head?.any isCapital then [separator] else []) ++ splitHumps separator r) := by
  cases r with
  | nil => rfl
  | cons d r => by_cases hd : isCapital d = true <;> simp [splitHumps, hc, hd]

/-- The hyphenated case of an ASCII text, letter by letter. -/
theorem hyphenatedChars_of_ascii (h : Text.IsAscii s) :
    hyphenatedChars s = (splitHumps '-' s).map Char.toLower :=
  Text.lowerChars_of_ascii (all_splitHumps h (by decide))

/-- Behind a small initial a hyphen is put in front of a capital, and what follows is put into
    hyphenated case on its own. -/
theorem hyphenatedChars_small (hc : isSmall c = true) (hr : Text.IsAscii r) :
    hyphenatedChars (c :: r) =
      c :: ((if r.head?.any isCapital then ['-'] else []) ++ hyphenatedChars r) := by
  have hascii : c.toNat < 128 := ascii_of_isLetter (by simp [isLetter, hc])
  have hlower : c.toLower = c :=
    Text.ascii_induction (P := fun c => isSmall c = true → c.toLower = c) (by decide) hascii hc
  rw [hyphenatedChars_of_ascii (List.forall_mem_cons.mpr ⟨hascii, hr⟩),
    hyphenatedChars_of_ascii hr, splitHumps_small hc, List.map_cons, List.map_append, hlower]
  split <;> rfl

/-- Behind its capital no hyphen is put in. -/
theorem hyphenatedChars_toUpper (hc : isSmall c = true) (hr : Text.IsAscii r) :
    hyphenatedChars (c.toUpper :: r) = c :: hyphenatedChars r := by
  have hascii : c.toNat < 128 := ascii_of_isLetter (by simp [isLetter, hc])
  obtain ⟨hupper, hcapital, hlower⟩ : c.toUpper.toNat < 128 ∧ isSmall c.toUpper = false ∧
      c.toUpper.toLower = c :=
    Text.ascii_induction (P := fun c => isSmall c = true →
      c.toUpper.toNat < 128 ∧ isSmall c.toUpper = false ∧ c.toUpper.toLower = c) (by decide)
      hascii hc
  rw [hyphenatedChars_of_ascii (List.forall_mem_cons.mpr ⟨hupper, hr⟩),
    hyphenatedChars_of_ascii hr, splitHumps_cons hcapital, List.map_cons, hlower]

/-- **The file of a name in camel case is that of its Pascal case** exactly when no capital stands
    behind its initial.  If one does, the file of the name has a hyphen between the two, and all else
    is the same. -/
theorem hyphenated_pascal_iff (hascii : Text.IsAscii n.toList) (hcamel : camel n = n)
    (hn : n.toList = c :: r) (hletter : isLetter c = true) :
    (hyphenated (pascal n) = hyphenated n ↔ ∀ d ∈ r.head?, isCapital d = false) ∧
    ((∃ d ∈ r.head?, isCapital d = true) →
      ∃ t, (hyphenated n).toList = c :: '-' :: t ∧ (hyphenated (pascal n)).toList = c :: t) := by
  have hname : IsCamel n.toList := by
    rw [← hcamel, camel, String.toList_ofList]
    exact isCamel_camelChars hascii
  have hpascal : (pascal n).toList = Text.capitalizeChars n.toList := by
    rw [pascal, String.toList_ofList, pascalChars_of_isCamel hname]
  rw [hn] at hname hpascal
  obtain ⟨hfirst, hr⟩ := List.forall_mem_cons.mp hname.ascii
  have hsmall : isSmall c = true :=
    Text.ascii_induction (P := fun c => isLetter c = true → c.toLower = c → isSmall c = true)
      (by decide) hfirst hletter (hname.initial c rfl)
  -- both are put into hyphenated case from the second character on in the same way
  have hof : (hyphenated n).toList =
      c :: ((if r.head?.any isCapital then ['-'] else []) ++ hyphenatedChars r) := by
    rw [hyphenated, String.toList_ofList, hn, hyphenatedChars_small hsmall hr]
  have hofPascal : (hyphenated (pascal n)).toList = c :: hyphenatedChars r := by
    rw [hyphenated, String.toList_ofList, hpascal, capitalizeChars_cons hfirst,
      hyphenatedChars_toUpper hsmall hr]
  refine ⟨?_, fun hcapital => ⟨hyphenatedChars r, ?_, hofPascal⟩⟩
  · rw [← String.toList_inj, hof, hofPascal, List.cons.injEq, eq_self, true_and]
    cases hany : r.head?.any isCapital with
    | true =>
      -- the hyphen makes the two different, and there is a capital
      obtain ⟨d, hd, hd'⟩ := (Option.any_eq_true _ _).mp hany
      refine iff_of_false (fun h => ?_) fun h => ?_
      · have hlength := congrArg List.length h
        simp at hlength
      · rw [h d hd] at hd'
        cases hd'
    | false =>
      refine iff_of_true rfl fun d hd => ?_
      rw [← Bool.not_eq_true]
      exact fun hd' => Bool.false_ne_true (hany.symm.trans ((Option.any_eq_true _ _).mpr ⟨d, hd, hd'⟩))
  · rw [hof, if_pos ((Option.any_eq_true _ _).mpr hcapital), List.singleton_append]

/-- A name with a capital behind its initial, and one without. -/
theorem hyphenated_pascal_iff_names :
    camel "eMail" = "eMail" ∧ (∃ t, (hyphenated "eMail").toList = 'e' :: '-' :: t ∧
      (hyphenated (pascal "eMail")).toList = 'e' :: t) ∧
    camel "apiClient" = "apiClient" ∧ hyphenated (pascal "apiClient") = hyphenated "apiClient" := by
  have hmail : camel "eMail" = "eMail" := by decide +kernel
  have hclient : camel "apiClient" = "apiClient" := by decide +kernel
  refine ⟨hmail, ?_, hclient, ?_⟩
  · exact (hyphenated_pascal_iff (c := 'e') (r := "Mail".toList) (by decide) hmail (by decide)
      (by decide)).2 ⟨'M', rfl, by decide⟩
  · refine (hyphenated_pascal_iff (c := 'a') (r := "piClient".toList) (by decide) hclient
      (by decide) (by decide)).1.mpr fun d hd => ?_
    obtain rfl := Option.some.inj hd
    decide

end ApiNodes.Name
