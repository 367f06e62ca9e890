import ApiNodes.Name.Operation
import ApiNodes.Proofs.Text.Casing
import ApiNodes.Proofs.Text.Pieces

namespace ApiNodes.Name

/-!
# Classes of characters that names stay in

A name is made of the characters that it is given, of their other cases, of letters and of
the separators that its case asks for.  `Closed` says of a class of characters that none of
these leads out of it; then labels, classes, constants and file names of texts in the class
are in the class.

* `closed_ne` — the characters other than a mark are such a class, `Closed.and` two of them;
* `closed_isWordy` — the characters of labels are one.
-/

variable {P Q : Char → Prop} {c d : Char} {s : List Char}

/-- All characters of a text are in a class. -/
def All (P : Char → Prop) (s : List Char) : Prop := ∀ c ∈ s, P c

/-- A class that case conversions do not lead out of, with all letters and the space. -/
structure Closed (P : Char → Prop) : Prop where
  upper : ∀ {c d}, P c → d ∈ Text.upperChar c → P d
  lower : ∀ {c d}, P c → d ∈ Text.lowerChar c → P d
  sigma : P Text.capitalSigma → P (Char.ofNat 0x3c2) ∧ P (Char.ofNat 0x3c3)
  letter : ∀ {c}, isLetter c = true → P c
  space : P ' '

/-! ### Texts of a class -/

/-- A text made of texts of the class. -/
theorem All.append {t : List Char} (hs : All P s) (ht : All P t) : All P (s ++ t) := by
  intro c hc
  rcases List.mem_append.mp hc with hc | hc
  · exact hs c hc
  · exact ht c hc

/-- A text whose characters are those of a text of the class. -/
theorem All.subset {t : List Char} (hs : All P s) (h : ∀ c ∈ t, c ∈ s) : All P t :=
  fun c hc => hs c (h c hc)

/-- A text of letters. -/
theorem Closed.all_letters (h : Closed P) (hs : s.all isLetter = true) : All P s :=
  fun c hc => h.letter (List.all_eq_true.mp hs c hc)

/-- Texts with a text between each two. -/
theorem All.intercalate {sep : String} {texts : List String} (hsep : All P sep.toList)
    (h : ∀ t ∈ texts, All P t.toList) : All P (String.intercalate sep texts).toList := by
  induction texts with
  | nil => exact fun c hc => by simp at hc
  | cons t texts ih =>
    have ht := h t List.mem_cons_self
    have ih := ih fun u hu => h u (List.mem_cons_of_mem t hu)
    by_cases hnil : texts = []
    · subst hnil
      rwa [String.intercalate_singleton]
    · rw [String.intercalate_cons_of_ne_nil hnil, String.toList_append, String.toList_append]
      exact (ht.append hsep).append ih

/-! ### Case conversion -/

/-- Upper case. -/
theorem Closed.upperChars (h : Closed P) (hs : All P s) : All P (Text.upperChars s) := by
  intro d hd
  obtain ⟨c, hc, hd⟩ := List.mem_flatMap.mp hd
  exact h.upper (hs c hc) hd

/-- Lower case. -/
theorem Closed.lowerFrom (h : Closed P) {before : List Char} (hs : All P s) :
    All P (Text.lowerFrom before s) := by
  induction s generalizing before with
  | nil => exact hs
  | cons c s ih =>
    have hc : P c := hs c List.mem_cons_self
    rw [Text.lowerFrom]
    refine All.append (fun d hd => ?_) (ih (hs.subset fun d hd => List.mem_cons_of_mem c hd))
    split at hd
    · rename_i hsigma
      have hboth := h.sigma (hsigma ▸ hc)
      rw [List.mem_singleton] at hd
      subst hd
      split
      · exact hboth.1
      · exact hboth.2
    · exact h.lower hc hd

/-- Lower case. -/
theorem Closed.lowerChars (h : Closed P) (hs : All P s) : All P (Text.lowerChars s) :=
  h.lowerFrom hs

/-- A capital initial. -/
theorem Closed.capitalizeChars (h : Closed P) (hs : All P s) : All P (Text.capitalizeChars s) := by
  cases s with
  | nil => exact hs
  | cons c s =>
    refine All.append (fun d hd => ?_) (hs.subset fun d hd => List.mem_cons_of_mem c hd)
    exact h.upper (hs c List.mem_cons_self) hd

/-- A text as a sentence. -/
theorem Closed.sentenceChars (h : Closed P) (hs : All P s) : All P (Name.sentenceChars s) :=
  (h.upperChars (hs.subset fun _ => List.mem_of_mem_take)).append
    (h.lowerChars (hs.subset fun _ => List.mem_of_mem_drop))

/-! ### Words -/

/-- The characters of a word are those of the text that separate no words. -/
theorem mem_words {w : List Char} (hw : w ∈ words s) (hc : c ∈ w) :
    c ∈ s ∧ isSeparator c = false := by
  induction s using words.induct generalizing w with
  | case1 => simp [words] at hw
  | case2 d hd => simp [words, hd] at hw
  | case3 d hd =>
    -- the last character, a word of its own
    simp only [words, hd, Bool.false_eq_true, if_false, List.mem_singleton] at hw
    subst hw
    obtain rfl := List.mem_singleton.mp hc
    exact ⟨hc, by simpa using hd⟩
  | case4 d e r hd ih =>
    -- a separator is left out
    rw [words, if_pos hd] at hw
    have h := ih hw hc
    exact ⟨List.mem_cons_of_mem d h.1, h.2⟩
  | case5 d e r hd he ih =>
    -- a word ends before a separator
    rw [words, if_neg hd, if_pos he] at hw
    rcases List.mem_cons.mp hw with rfl | hw
    · obtain rfl := List.mem_singleton.mp hc
      exact ⟨List.mem_cons_self, by simpa using hd⟩
    · have h := ih hw hc
      exact ⟨List.mem_cons_of_mem d h.1, h.2⟩
  | case6 d e r hd he hr ih =>
    -- nothing but separators follows
    rw [words, if_neg hd, if_neg he, hr, List.mem_singleton] at hw
    subst hw
    obtain rfl := List.mem_singleton.mp hc
    exact ⟨List.mem_cons_self, by simpa using hd⟩
  | case7 d e r hd he v vs hr ih =>
    -- the character goes before the first of the words that follow
    rw [words, if_neg hd, if_neg he, hr] at hw
    have hlater {w} (hw : w ∈ words (e :: r)) (hc : c ∈ w) :
        c ∈ d :: e :: r ∧ isSeparator c = false :=
      ⟨List.mem_cons_of_mem d (ih hw hc).1, (ih hw hc).2⟩
    rcases List.mem_cons.mp hw with rfl | hw
    · rcases List.mem_cons.mp hc with rfl | hc
      · exact ⟨List.mem_cons_self, by simpa using hd⟩
      · exact hlater (hr ▸ List.mem_cons_self) hc
    · exact hlater (hr ▸ List.mem_cons_of_mem v hw) hc

/-- Splitting humps adds nothing but the separator. -/
theorem mem_splitHumps {sep : Char} (h : c ∈ splitHumps sep s) : c = sep ∨ c ∈ s := by
  induction s using splitHumps.induct with
  | case1 => simp [splitHumps] at h
  | case2 d => exact .inr h
  | case3 d e r hump ih =>
    rw [splitHumps, if_pos hump] at h
    rcases List.mem_cons.mp h with rfl | h
    · exact .inr List.mem_cons_self
    · rcases List.mem_cons.mp h with rfl | h
      · exact .inl rfl
      · exact (ih h).imp_right (List.mem_cons_of_mem d)
  | case4 d e r hump ih =>
    rw [splitHumps, if_neg hump] at h
    rcases List.mem_cons.mp h with rfl | h
    · exact .inr List.mem_cons_self
    · exact (ih h).imp_right (List.mem_cons_of_mem d)

/-- Words. -/
theorem all_words (hs : All P s) {w : List Char} (hw : w ∈ words s) : All P w :=
  hs.subset fun _ hc => (mem_words hw hc).1

/-- Split humps. -/
theorem all_splitHumps (hs : All P s) (hd : P d) : All P (splitHumps d s) := by
  intro c hc
  rcases mem_splitHumps hc with rfl | hc
  · exact hd
  · exact hs c hc

/-! ### Cases of names -/

/-- Camel case. -/
theorem Closed.camelChars (h : Closed P) (hs : All P s) : All P (Name.camelChars s) := by
  unfold Name.camelChars
  split
  · exact fun c hc => by simp at hc
  · rename_i w ws hw
    have hall {v} (hv : v ∈ w :: ws) : All P v := all_words hs (hw ▸ hv)
    have hfirst := hall List.mem_cons_self
    refine ((h.lowerChars (hfirst.subset fun _ => List.mem_of_mem_take)).append
      (hfirst.subset fun _ => List.mem_of_mem_drop)).append fun c hc => ?_
    obtain ⟨v, hv, hc⟩ := List.mem_flatMap.mp hc
    exact h.capitalizeChars (hall (List.mem_cons_of_mem w hv)) c hc

/-- Pascal case. -/
theorem Closed.pascalChars (h : Closed P) (hs : All P s) : All P (Name.pascalChars s) :=
  h.capitalizeChars (h.camelChars hs)

/-- Hyphenated case. -/
theorem Closed.hyphenatedChars (h : Closed P) (hyphen : P '-') (hs : All P s) :
    All P (Name.hyphenatedChars s) :=
  h.lowerChars (all_splitHumps hs hyphen)

/-- Labels. -/
theorem Closed.label (h : Closed P) {name : String} (hs : All P name.toList) :
    All P (Name.label name).toList := by
  refine All.intercalate (fun c hc => ?_) fun t ht => ?_
  · obtain rfl : c = ' ' := by simpa using hc
    exact h.space
  · obtain ⟨w, hw, rfl⟩ := List.mem_map.mp ht
    have hall := all_words (all_splitHumps hs h.space) hw
    unfold labelWord
    dsimp only
    split
    · rename_i a ha
      exact h.all_letters (List.all_eq_true.mp
        (show acronyms.all (·.toList.all isLetter) = true by decide) a (List.mem_of_find?_eq_some ha))
    · rw [String.toList_ofList]
      exact h.sentenceChars hall

/-- Plurals. -/
theorem Closed.pluralChars (h : Closed P) (hs : All P s) : All P (Name.pluralChars s) := by
  unfold Name.pluralChars
  split
  · rename_i r hr
    refine All.append (hs.subset fun c hc => ?_) (h.all_letters (by decide))
    rw [← List.mem_reverse, hr]
    exact List.mem_cons_of_mem _ (List.mem_reverse.mp hc)
  all_goals exact hs.append (h.all_letters (by decide))

/-! ### Names of resources -/

/-- Dropping the end of a text adds nothing. -/
theorem mem_of_mem_dropTail {tail : List Char} (h : c ∈ Text.dropTail tail s) : c ∈ s := by
  unfold Text.dropTail at h
  split at h
  · rename_i kept hkept
    rw [← List.mem_reverse, Text.after?_eq_some_iff.mp hkept]
    exact List.mem_append_right _ (List.mem_reverse.mp h)
  · split at h
    · rename_i r hr
      split at h
      · rename_i kept hkept
        rw [← List.mem_reverse, hr, Text.after?_eq_some_iff.mp hkept]
        rcases List.mem_append.mp h with h | h
        · exact List.mem_cons_of_mem _ (List.mem_append_right _ (List.mem_reverse.mp h))
        · obtain rfl := List.mem_singleton.mp h
          exact List.mem_cons_self
      · exact h
    · exact h

/-- Singulars. -/
theorem Closed.singularChars (h : Closed P) (hs : All P s) : All P (Name.singularChars s) := by
  unfold Name.singularChars
  split
  · rename_i plural singular hfind
    exact h.all_letters (List.all_eq_true.mp
      (show irregularPlurals.all (·.2.toList.all isLetter) = true by decide) (plural, singular)
      (List.mem_of_find?_eq_some hfind))
  · exact hs.subset fun _ => mem_of_mem_dropTail

/-- Joined pieces. -/
theorem all_join {sep : List Char} {pieces : List (List Char)} (hsep : All P sep)
    (h : ∀ p ∈ pieces, All P p) : All P (Text.join sep pieces) := by
  induction pieces using Text.join.induct with
  | case1 => exact fun c hc => by simp [Text.join] at hc
  | case2 p => exact h p List.mem_cons_self
  | case3 p q r ih =>
    exact ((h p List.mem_cons_self).append hsep).append
      (ih fun t ht => h t (List.mem_cons_of_mem p ht))

/-- Pieces of which the last is replaced. -/
theorem all_mapLast {f : List Char → List Char} (hf : ∀ p, All P p → All P (f p))
    {pieces : List (List Char)} (h : ∀ p ∈ pieces, All P p) :
    ∀ p ∈ mapLast f pieces, All P p := by
  induction pieces using mapLast.induct with
  | case1 => exact h
  | case2 p =>
    intro q hq
    obtain rfl := List.mem_singleton.mp hq
    exact hf p (h p List.mem_cons_self)
  | case3 p q r ih =>
    intro t ht
    rcases List.mem_cons.mp ht with rfl | ht
    · exact h t List.mem_cons_self
    · exact ih (fun u hu => h u (List.mem_cons_of_mem p hu)) t ht

/-- What the name of the resource of a segment is the camel case of. -/
theorem Closed.stem (h : Closed P) (hyphen : P '-') (hs : All P s) :
    All P (Text.join ['-']
      (mapLast Name.singularChars (Text.cut '-' (Text.dropTail "-api".toList s)))) := by
  refine all_join (fun c hc => ?_) (all_mapLast (fun _ => h.singularChars) fun p hp => ?_)
  · obtain rfl := List.mem_singleton.mp hc
    exact hyphen
  · exact hs.subset fun c hc => mem_of_mem_dropTail (Text.mem_of_mem_cut hp hc)

/-- The name of the resource of a segment. -/
theorem Closed.resource (h : Closed P) (hyphen : P '-') {segment : String}
    (hs : All P segment.toList) : All P (Name.resource segment).toList := by
  rw [Name.resource, String.toList_ofList, resourceChars]
  exact h.camelChars (h.stem hyphen hs)

/-! ### Names of operations -/

/-- The verbs of the basic operations are letters, and so are their keys. -/
theorem Closed.verbs (h : Closed P) {base verb : String} (hmem : (base, verb) ∈ Name.verbs) :
    All P base.toList ∧ All P verb.toList := by
  have hall := List.all_eq_true.mp
    (show Name.verbs.all (fun p => p.1.toList.all isLetter && p.2.toList.all isLetter) = true by
      decide) (base, verb) hmem
  rw [Bool.and_eq_true] at hall
  exact ⟨h.all_letters hall.1, h.all_letters hall.2⟩

/-- The label of an operation. -/
theorem Closed.operationLabel (h : Closed P) {key resourceLabel : String}
    (hkey : All P key.toList) (hlabel : All P resourceLabel.toList) :
    All P (Name.operationLabel key resourceLabel).toList := by
  have hspace : All P " ".toList := fun c hc => by
    obtain rfl : c = ' ' := by simpa using hc
    exact h.space
  unfold Name.operationLabel
  split
  · rename_i verb hverb
    obtain ⟨l₁, l₂, hverbs, -⟩ := List.lookup_eq_some_iff.mp hverb
    have hmem : (key, verb) ∈ Name.verbs := by simp [hverbs]
    rw [String.toList_append, String.toList_append]
    refine ((h.verbs hmem).2.append hspace).append ?_
    split
    · rw [plural, String.toList_ofList]
      exact h.pluralChars hlabel
    · exact hlabel
  · cases hcompound : compoundLabel? key resourceLabel with
    | none => exact h.label hkey
    | some text =>
      obtain ⟨⟨base, verb⟩, hmem, hrest⟩ := List.exists_of_findSome?_eq_some hcompound
      dsimp only at hrest
      split at hrest
      · cases hrest
      · cases hrest
      · rename_i rest _ hafter
        cases hrest
        have htail : All P rest := hkey.subset fun c hc => by
          rw [Text.after?_eq_some_iff.mp hafter]
          exact List.mem_append_right _ hc
        simp only [Option.getD_some, String.toList_append]
        exact ((((h.verbs hmem).2.append hspace).append hlabel).append hspace).append
          (h.label (by rwa [String.toList_ofList]))

/-- The action of an operation. -/
theorem Closed.operationAction (h : Closed P) {key resourceLabel : String}
    (hkey : All P key.toList) (hlabel : All P resourceLabel.toList) :
    All P (Name.operationAction key resourceLabel).toList := by
  rw [Name.operationAction, sentence, String.toList_ofList]
  exact h.sentenceChars (h.operationLabel hkey hlabel)

/-! ### Classes -/

/-- Both of two classes. -/
theorem Closed.and (hP : Closed P) (hQ : Closed Q) : Closed fun c => P c ∧ Q c where
  upper hc hd := ⟨hP.upper hc.1 hd, hQ.upper hc.2 hd⟩
  lower hc hd := ⟨hP.lower hc.1 hd, hQ.lower hc.2 hd⟩
  sigma hc := ⟨⟨(hP.sigma hc.1).1, (hQ.sigma hc.2).1⟩, (hP.sigma hc.1).2, (hQ.sigma hc.2).2⟩
  letter hc := ⟨hP.letter hc, hQ.letter hc⟩
  space := ⟨hP.space, hQ.space⟩

/-- A letter is an ASCII character. -/
theorem ascii_of_isLetter (h : isLetter c = true) : c.toNat < 128 := by
  simp only [isLetter, isSmall, isCapital, Bool.or_eq_true, decide_eq_true_eq, Char.le_def,
    UInt32.le_iff_toNat_le] at h
  have hz : 'z'.val.toNat = 122 := rfl
  have hZ : 'Z'.val.toNat = 90 := rfl
  show c.val.toNat < 128
  omega

/-- All characters but a mark that is not the space. -/
theorem closed_ne (hmark : Text.isMark d = true) (hspace : d ≠ ' ') : Closed (· ≠ d) where
  upper hc hd := by
    rintro rfl
    exact hc (Text.eq_of_mem_upperChar hd hmark).symm
  lower hc hd := by
    rintro rfl
    exact hc (Text.eq_of_mem_lowerChar hd hmark).symm
  sigma _ := by
    constructor <;>
      · rintro rfl
        exact absurd hmark (by decide)
  letter hc := by
    rintro rfl
    have key : ∀ n : Fin 128, isLetter (Char.ofNat n) = true → Text.isMark (Char.ofNat n) = false := by
      decide
    have h := Text.ascii_induction (P := fun c => isLetter c = true → Text.isMark c = false) key
      (ascii_of_isLetter hc) hc
    rw [h] at hmark
    cases hmark
  space := hspace.symm

/-- A character of labels and file names: a word character, a hyphen or a space. -/
def isWordy (c : Char) : Bool := isWordChar c || c == '-' || c == ' '

/-- Labels and file names. -/
abbrev Wordy (s : List Char) : Prop := All (isWordy · = true) s

/-- Word characters are characters of labels. -/
theorem wordy_of_wordChars (h : All (isWordChar · = true) s) : Wordy s := by
  intro c hc
  simp [isWordy, h c hc]

/-- A character of labels is none of the others. -/
theorem ne_of_isWordy (hc : isWordy c = true) (hd : isWordy d = false) : c ≠ d := by
  rintro rfl
  rw [hc] at hd
  cases hd

/-- The characters of labels are ASCII. -/
theorem ascii_of_isWordy (h : isWordy c = true) : c.toNat < 128 := by
  simp only [isWordy, isWordChar, isDigit, Bool.or_eq_true, decide_eq_true_eq, beq_iff_eq,
    Char.le_def, UInt32.le_iff_toNat_le] at h
  have h9 : '9'.val.toNat = 57 := rfl
  rcases h with (((h | h) | rfl) | rfl) | rfl
  · exact ascii_of_isLetter h
  · show c.val.toNat < 128
    omega
  all_goals decide

/-- The characters of labels. -/
theorem closed_isWordy : Closed (isWordy · = true) where
  upper {c d} hc hd := by
    have hascii := ascii_of_isWordy hc
    rw [Text.upperChar, if_pos hascii, List.mem_singleton] at hd
    subst hd
    exact Text.ascii_induction (P := fun c => isWordy c = true → isWordy c.toUpper = true)
      (by decide) hascii hc
  lower {c d} hc hd := by
    have hascii := ascii_of_isWordy hc
    rw [Text.lowerChar, if_pos hascii, List.mem_singleton] at hd
    subst hd
    exact Text.ascii_induction (P := fun c => isWordy c = true → isWordy c.toLower = true)
      (by decide) hascii hc
  sigma h := absurd h (by decide)
  letter h := by simp [isWordy, isWordChar, h]
  space := rfl

end ApiNodes.Name
