import ApiNodes.Text.Casing
import Mathlib.Tactic.Common

namespace ApiNodes.Text

/-!
# Case conversion: lemmas

On ASCII the lower case is the letter-by-letter map, and no conversion makes a mark, an ASCII
character other than a letter.

* `lowerChars_of_ascii` — lower case on ASCII;
* `eq_of_mem_upperChar`, `eq_of_mem_lowerChar` — a mark is only the image of itself;
* `mem_of_upperChar_ascii`, `eq_of_lowerChar_ascii` — the few characters beyond ASCII that have
  images in ASCII;
* `lower_lower` — the lower case of a text is its own lower case.
-/

variable {c d : Char} {s before : List Char}

/-! ### ASCII -/

/-- A text of ASCII characters. -/
def IsAscii (s : List Char) : Prop := ∀ c ∈ s, c.toNat < 128

instance (s : List Char) : Decidable (IsAscii s) :=
  decidable_of_iff ((s.all fun c => decide (c.toNat < 128)) = true) (by simp [IsAscii])

/-- What holds of the characters of the first 128 codes holds of every ASCII character. -/
theorem ascii_induction {P : Char → Prop} (h : ∀ n : Fin 128, P (Char.ofNat n))
    (hc : c.toNat < 128) : P c := by
  have hc' := h ⟨c.toNat, hc⟩
  rwa [Char.ofNat_toNat] at hc'

/-- Lower case on ASCII. -/
theorem lowerFrom_of_ascii (h : IsAscii s) : lowerFrom before s = s.map Char.toLower := by
  induction s generalizing before with
  | nil => rfl
  | cons c s ih =>
    have hc : c.toNat < 128 := h c List.mem_cons_self
    have hsigma : c ≠ capitalSigma := by
      rintro rfl
      exact absurd hc (by decide)
    rw [lowerFrom, if_neg hsigma, lowerChar, if_pos hc,
      ih fun d hd => h d (List.mem_cons_of_mem c hd)]
    rfl

/-- Lower case on ASCII. -/
theorem lowerChars_of_ascii (h : IsAscii s) : lowerChars s = s.map Char.toLower :=
  lowerFrom_of_ascii h

/-! ### Marks -/

/-- An ASCII character that is neither a letter nor null. -/
def isMark (c : Char) : Bool := decide (0 < c.toNat ∧ c.toNat < 128) && !c.isAlpha

/-- The images of a run are not marks: they are not ASCII, or the only one is a letter. -/
def CaseRun.isUnmarked (r : CaseRun) : Bool :=
  decide (128 ≤ r.image) || (r.first == r.last && !isMark (Char.ofNat r.image))

/-- The character of a number has that code, or stands for a number that is no code. -/
theorem toNat_ofNat_cases (n : Nat) : (Char.ofNat n).toNat = n ∨ (Char.ofNat n).toNat = 0 := by
  by_cases h : n.isValidChar
  · exact .inl (by rw [Char.ofNat, dif_pos h]; rfl)
  · exact .inr (by simp [Char.ofNat, h, Char.toNat])

/-- The image of a character under tables without marks is no mark. -/
theorem eq_of_mem_imageOf {expansions : List (Nat × List Nat)} {runs : List CaseRun}
    (he : ∀ e ∈ expansions, ∀ n ∈ e.2, isMark (Char.ofNat n) = false)
    (hr : ∀ r ∈ runs, r.isUnmarked = true) (h : d ∈ imageOf expansions runs c.toNat)
    (hd : isMark d = true) : d = c := by
  unfold imageOf at h
  split at h
  · rename_i image himage
    obtain ⟨n, hn, rfl⟩ := List.mem_map.mp h
    obtain ⟨l₁, l₂, rfl, -⟩ := List.lookup_eq_some_iff.mp himage
    rw [he (c.toNat, image) (List.mem_append_right l₁ List.mem_cons_self) n hn] at hd
    cases hd
  · rw [List.mem_singleton] at h
    cases hrun : runs.findSome? fun r => r.apply? c.toNat with
    | none =>
      rw [hrun, Option.getD_none, Char.ofNat_toNat] at h
      exact h
    | some n =>
      rw [hrun, Option.getD_some] at h
      subst h
      obtain ⟨r, hmem, happly⟩ := List.exists_of_findSome?_eq_some hrun
      have hunmarked := hr r hmem
      unfold CaseRun.apply? at happly
      split at happly
      · rename_i hbounds
        cases happly
        simp only [CaseRun.isUnmarked, Bool.or_eq_true, decide_eq_true_eq, Bool.and_eq_true,
          beq_iff_eq, Bool.not_eq_true'] at hunmarked
        rcases hunmarked with hbig | ⟨hsingle, hletter⟩
        · -- the image has a code beyond ASCII, or none and stands for null
          simp only [isMark, Bool.and_eq_true, decide_eq_true_eq] at hd
          have hcode := toNat_ofNat_cases (r.image + (c.toNat - r.first))
          omega
        · have hfirst : c.toNat - r.first = 0 := by omega
          rw [hfirst, Nat.add_zero, hletter] at hd
          cases hd
      · cases happly

/-- Letter by letter no mark is made. -/
theorem eq_of_isMark_toUpper (hc : c.toNat < 128) (hd : isMark c.toUpper = true) :
    c.toUpper = c := by
  revert hd
  exact ascii_induction (P := fun c => isMark c.toUpper = true → c.toUpper = c) (by decide) hc

/-- Letter by letter no mark is made. -/
theorem eq_of_isMark_toLower (hc : c.toNat < 128) (hd : isMark c.toLower = true) :
    c.toLower = c := by
  revert hd
  exact ascii_induction (P := fun c => isMark c.toLower = true → c.toLower = c) (by decide) hc

/-- Upper case makes no mark. -/
theorem eq_of_mem_upperChar (h : d ∈ upperChar c) (hd : isMark d = true) : d = c := by
  unfold upperChar at h
  split at h
  · rename_i hc
    rw [List.mem_singleton] at h
    subst h
    exact eq_of_isMark_toUpper hc hd
  · exact eq_of_mem_imageOf (by decide +kernel) (by decide +kernel) h hd

/-- Lower case makes no mark. -/
theorem eq_of_mem_lowerChar (h : d ∈ lowerChar c) (hd : isMark d = true) : d = c := by
  unfold lowerChar at h
  split at h
  · rename_i hc
    rw [List.mem_singleton] at h
    subst h
    exact eq_of_isMark_toLower hc hd
  · exact eq_of_mem_imageOf (by decide +kernel) (by decide +kernel) h hd

/-! ### Images in ASCII -/

/-- The sign of the kelvin, whose lower case is an ASCII letter. -/
def kelvin : Char := Char.ofNat 0x212a

/-- The characters whose upper case is ASCII letters: the sharp s, the dotless i, the long s and
    the ligatures. -/
def ligatures : List Char := ['ß', 'ı', 'ſ', 'ﬀ', 'ﬁ', 'ﬂ', 'ﬃ', 'ﬄ', 'ﬅ', 'ﬆ']

/-- An image that is ASCII without null is that of one of the characters that tables allow. -/
theorem mem_of_imageOf_ascii {expansions : List (Nat × List Nat)} {runs : List CaseRun}
    {allowed : List Nat}
    (he : ∀ e ∈ expansions, e.1 ∈ allowed ∨ ∃ n ∈ e.2, 128 ≤ n)
    (hr : ∀ r ∈ runs, 128 ≤ r.image ∨ (r.first = r.last ∧ r.first ∈ allowed))
    (hc : 128 ≤ c.toNat)
    (h : ∀ d ∈ imageOf expansions runs c.toNat, 0 < d.toNat ∧ d.toNat < 128) :
    c.toNat ∈ allowed := by
  have hbig {n : Nat} (hn : 128 ≤ n) :
      ¬ (0 < (Char.ofNat n).toNat ∧ (Char.ofNat n).toNat < 128) := by
    have hcode := toNat_ofNat_cases n
    omega
  unfold imageOf at h
  split at h
  · -- an expansion to several characters
    rename_i image himage
    obtain ⟨l₁, l₂, rfl, -⟩ := List.lookup_eq_some_iff.mp himage
    refine (he _ (List.mem_append_right l₁ List.mem_cons_self)).resolve_right ?_
    rintro ⟨n, hn, hn'⟩
    exact hbig hn' (h _ (List.mem_map_of_mem hn))
  · -- one character, from the run of its code
    have h := h _ (List.mem_singleton_self _)
    cases hrun : runs.findSome? fun r => r.apply? c.toNat with
    | none =>
      rw [hrun, Option.getD_none] at h
      exact absurd h (hbig hc)
    | some n =>
      rw [hrun, Option.getD_some] at h
      obtain ⟨r, hmem, happly⟩ := List.exists_of_findSome?_eq_some hrun
      unfold CaseRun.apply? at happly
      split at happly
      · rename_i hbounds
        cases happly
        rcases hr r hmem with himage | ⟨hsingle, hallowed⟩
        · exact absurd h (hbig (by omega))
        · have hfirst : r.first = c.toNat := by omega
          exact hfirst ▸ hallowed
      · cases happly

/-- The one character beyond ASCII whose lower case is ASCII. -/
theorem eq_of_lowerChar_ascii (hc : 128 ≤ c.toNat)
    (h : ∀ d ∈ lowerChar c, 0 < d.toNat ∧ d.toNat < 128) : c = kelvin := by
  rw [lowerChar, if_neg (by omega)] at h
  have hmem : c.toNat ∈ [0x212a] :=
    mem_of_imageOf_ascii (by decide +kernel) (by decide +kernel) hc h
  rw [← Char.ofNat_toNat c, List.mem_singleton.mp hmem, kelvin]

/-- The characters beyond ASCII whose upper case is ASCII. -/
theorem mem_of_upperChar_ascii (hc : 128 ≤ c.toNat)
    (h : ∀ d ∈ upperChar c, 0 < d.toNat ∧ d.toNat < 128) : c ∈ ligatures := by
  rw [upperChar, if_neg (by omega)] at h
  have hmem : c.toNat ∈ ligatures.map Char.toNat :=
    mem_of_imageOf_ascii (by decide +kernel) (by decide +kernel) hc h
  obtain ⟨d, hd, heq⟩ := List.mem_map.mp hmem
  rwa [← Char.toNat_inj.mp heq]

/-! ### Lower case twice -/

/-- A character that stays in lower case. -/
def StaysLower (c : Char) : Prop := c ≠ capitalSigma ∧ lowerChar c = [c]

instance (c : Char) : Decidable (StaysLower c) := inferInstanceAs (Decidable (_ ∧ _))

/-- The images of a run do not lie on another one: they end before it, begin after it, or stand
    between its characters. -/
def CaseRun.isApart (r r' : CaseRun) : Bool :=
  (r.image + (r.last - r.first)).blt r'.first || r'.last.blt r.image ||
    ((r.step == 2 || r.first == r.last) && r'.step == 2 && (r.image + r'.first) % 2 == 1)

/-- What a run makes has no image under one that it is apart from. -/
theorem apply?_of_isApart {r r' : CaseRun} (h : r.isApart r' = true) {n m : Nat}
    (hn : r.apply? n = some m) : r'.apply? m = none := by
  unfold CaseRun.apply? at hn ⊢
  split at hn
  · rename_i hbounds
    cases hn
    refine if_neg ?_
    simp only [CaseRun.isApart, Bool.or_eq_true, Bool.and_eq_true, beq_iff_eq, Nat.blt_eq] at h
    rintro ⟨hfirst, hlast, hstep⟩
    rcases h with (h | h) | ⟨⟨hsteps | hsingle, hstep'⟩, hodd⟩
    · omega
    · omega
    · rw [hsteps] at hbounds
      rw [hstep'] at hstep
      omega
    · rw [hstep'] at hstep
      omega
  · cases hn

/-- The runs of the table of lower case are apart from each other, and from the expansions. -/
theorem isApart_lowerRuns :
    (lowerRuns.all fun r => lowerRuns.all fun r' => r.isApart r') = true ∧
      (lowerRuns.all fun r => lowerExpansions.all fun e => r.isApart ⟨e.1, e.1, 1, 0⟩) = true := by
  decide +kernel

/-- The images of the table of expansions stay in lower case. -/
theorem staysLower_lowerExpansions :
    ∀ e ∈ lowerExpansions, ∀ n ∈ e.2, StaysLower (Char.ofNat n) := by decide +kernel

/-- A code that a run makes has no image of its own. -/
theorem imageOf_of_lowerRuns {n m : Nat} (h : (lowerRuns.findSome? fun r => r.apply? n) = some m) :
    lowerExpansions.lookup m = none ∧ (lowerRuns.findSome? fun r => r.apply? m) = none := by
  obtain ⟨r, hmem, happly⟩ := List.exists_of_findSome?_eq_some h
  obtain ⟨hruns, hexpansions⟩ := isApart_lowerRuns
  simp only [List.all_eq_true] at hruns hexpansions
  constructor
  · rw [List.lookup_eq_none_iff]
    intro e he
    have hnone := apply?_of_isApart (hexpansions r hmem e he) happly
    unfold CaseRun.apply? at hnone
    simp only [Nat.mod_one, and_true, ite_eq_right_iff, reduceCtorEq, imp_false] at hnone
    rw [bne_iff_ne]
    omega
  · rw [List.findSome?_eq_none_iff]
    intro r' hr'
    exact apply?_of_isApart (hruns r hmem r' hr') happly

/-- A character that a run makes stays in lower case. -/
theorem staysLower_of_lowerRuns {n : Nat} (hc : 128 ≤ c.toNat)
    (h : lowerChar c = [Char.ofNat n])
    (hrun : (lowerRuns.findSome? fun r => r.apply? c.toNat) = some n) :
    StaysLower (Char.ofNat n) := by
  obtain ⟨hexpansion, hnone⟩ := imageOf_of_lowerRuns hrun
  by_cases hascii : (Char.ofNat n).toNat < 128
  · by_cases hnull : (Char.ofNat n).toNat = 0
    · rw [← Char.ofNat_toNat (Char.ofNat n), hnull]
      decide
    · -- only the sign of the kelvin has such a lower case
      obtain rfl := eq_of_lowerChar_ascii hc fun d hd => by
        rw [h, List.mem_singleton] at hd
        subst hd
        omega
      have hk : lowerChar kelvin = ['k'] := by decide +kernel
      obtain heq := List.singleton_inj.mp (h.symm.trans hk)
      rw [heq]
      decide
  · have hcode : (Char.ofNat n).toNat = n := (toNat_ofNat_cases n).resolve_right (by omega)
    refine ⟨?_, ?_⟩
    · intro hsigma
      rw [← hcode, hsigma] at hnone
      exact absurd hnone (by decide +kernel)
    · rw [lowerChar, if_neg hascii, hcode, imageOf, hexpansion, hnone, Option.getD_none]

/-- The lower case of a character stays in lower case. -/
theorem staysLower_of_mem_lowerChar (hc : c ≠ capitalSigma) (h : d ∈ lowerChar c) :
    StaysLower d := by
  by_cases hascii : c.toNat < 128
  · rw [lowerChar, if_pos hascii, List.mem_singleton] at h
    subst h
    exact ascii_induction (P := fun c => StaysLower c.toLower) (by decide) hascii
  · have himage : lowerChar c = imageOf lowerExpansions lowerRuns c.toNat := if_neg hascii
    rw [himage] at h
    unfold imageOf at h
    cases hexpansion : lowerExpansions.lookup c.toNat with
    | some image =>
      rw [hexpansion] at h
      obtain ⟨n, hn, rfl⟩ := List.mem_map.mp h
      obtain ⟨l₁, l₂, heq, -⟩ := List.lookup_eq_some_iff.mp hexpansion
      exact staysLower_lowerExpansions (c.toNat, image) (by simp [heq]) n hn
    | none =>
      rw [hexpansion, List.mem_singleton] at h
      cases hrun : lowerRuns.findSome? fun r => r.apply? c.toNat with
      | none =>
        -- a character without an image is its own
        rw [hrun, Option.getD_none, Char.ofNat_toNat] at h
        subst h
        exact ⟨hc, by rw [himage, imageOf, hexpansion, hrun, Option.getD_none, Char.ofNat_toNat]⟩
      | some n =>
        rw [hrun, Option.getD_some] at h
        subst h
        refine staysLower_of_lowerRuns (by omega) ?_ hrun
        rw [himage, imageOf, hexpansion, hrun, Option.getD_some]

/-- The characters of a text in lower case stay in lower case. -/
theorem staysLower_of_mem_lowerFrom (h : d ∈ lowerFrom before s) : StaysLower d := by
  induction s generalizing before with
  | nil => cases h
  | cons c s ih =>
    rw [lowerFrom, List.mem_append] at h
    rcases h with h | h
    · split at h
      · rw [List.mem_singleton] at h
        split at h <;> (subst h; decide +kernel)
      · rename_i hc
        exact staysLower_of_mem_lowerChar hc h
    · exact ih h

/-- A text whose characters stay in lower case is its own lower case. -/
theorem lowerFrom_of_staysLower (h : ∀ c ∈ s, StaysLower c) : lowerFrom before s = s := by
  induction s generalizing before with
  | nil => rfl
  | cons c s ih =>
    obtain ⟨hsigma, hc⟩ := h c List.mem_cons_self
    rw [lowerFrom, if_neg hsigma, hc, ih fun d hd => h d (List.mem_cons_of_mem c hd)]
    rfl

/-- **The lower case of a text is its own lower case.** -/
@[simp] theorem lower_lower (s : String) : lower (lower s) = lower s := by
  rw [lower, lower, String.toList_ofList, lowerChars, lowerChars,
    lowerFrom_of_staysLower fun c hc => staysLower_of_mem_lowerFrom hc]

end ApiNodes.Text
