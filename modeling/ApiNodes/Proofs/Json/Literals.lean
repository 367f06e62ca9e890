import ApiNodes.Document.Json.Reader
import ApiNodes.Document.Json.Writer
import Mathlib.Algebra.Group.Nat.Defs
import Mathlib.Data.List.TakeWhile

namespace ApiNodes.Json

open Text (hexDigits)

/-!
# Texts and numbers that are read back

A text literal is read back as the text, whatever follows its closing quote, and the decimal text
of an integer as the integer.  A number ends where no more of it can follow (`Ended`), so that what
is read of a number on its own is read of it inside a document too.

* `string_textLiteral` — texts;
* `number_toString` — integers;
* `number_append`, `word?_append` — numbers and words with something after them.
-/

variable {s rest tail seen : List Char} {c : Char} {n fuel opened : Nat} {v : Value}

/-! ### Hexadecimal digits -/

/-- A hexadecimal digit stands for its value. -/
theorem hexValue?_digitChar : ∀ d, d < 16 → hexValue? (Nat.digitChar d) = some d := by decide

/-- As many digits are written as there is room for. -/
theorem length_hexDigits (width n : Nat) : (hexDigits width n).length = width := by
  induction width generalizing n with
  | zero => rfl
  | succ width ih => simp [hexDigits, ih]

/-- One more digit. -/
theorem hexNumber?_concat (digits : List Char) (c : Char) :
    hexNumber? (digits ++ [c]) =
      (hexNumber? digits).bind fun n => (hexValue? c).map fun d => n * 16 + d := by
  unfold hexNumber?
  rw [List.foldl_append]
  cases List.foldl _ _ digits <;> cases hdigit : hexValue? c <;> simp [hdigit]

/-- **Hexadecimal digits are read back**, as far as they go. -/
theorem hexNumber?_hexDigits (width n : Nat) :
    hexNumber? (hexDigits width n) = some (n % 16 ^ width) := by
  induction width generalizing n with
  | zero => simp [hexDigits, hexNumber?, Nat.mod_one]
  | succ width ih =>
    -- the last digit is written last, and the others are those of what is left of the number
    have hdigit := hexValue?_digitChar (n % 16) (Nat.mod_lt _ (by decide))
    rw [hexDigits, hexNumber?_concat, ih, hdigit, Nat.pow_succ, Nat.mul_comm, Nat.mod_mul]
    simp only [Option.bind_some, Option.map_some]
    congr 1
    omega

/-! ### Texts -/

/-- The escape of a code unit is read back, if something follows it. -/
theorem codeUnit_unitEscape (hn : n < 0x10000) (htail : tail ≠ []) :
    codeUnit ('u' :: (hexDigits 4 n ++ tail)) = .ok (n, tail) := by
  have hlength := length_hexDigits 4 n
  have hpos := List.length_pos_iff.mpr htail
  have hmod : n % 16 ^ 4 = n := Nat.mod_eq_of_lt hn
  unfold codeUnit
  rw [List.drop_one, List.tail_cons, if_neg (by rw [List.length_append]; omega),
    List.take_left' hlength, List.drop_left' hlength, hexNumber?_hexDigits, hmod]

/-- A character of the first plane is no surrogate. -/
theorem not_surrogate (c : Char) :
    Text.isHighSurrogate c.toNat = false ∧ Text.isLowSurrogate c.toNat = false := by
  have hvalid : c.toNat < 0xd800 ∨ 0xdfff < c.toNat ∧ c.toNat < 0x110000 := c.valid
  simp only [Text.isHighSurrogate, Text.isLowSurrogate, decide_eq_false_iff_not]
  omega

/-- **The escape of a character of the first plane** is read back. -/
theorem codeEscape_unitEscape (hc : c.toNat < 0x10000) (htail : tail ≠ []) :
    codeEscape ('u' :: (hexDigits 4 c.toNat ++ tail)) = .ok (c, tail) := by
  obtain ⟨hhigh, hlow⟩ := not_surrogate c
  unfold codeEscape
  rw [codeUnit_unitEscape hc htail]
  simp [bind, Except.bind, pure, Except.pure, hhigh, Text.ofCode, hlow, Char.ofNat_toNat]

/-- The two surrogates of a character beyond it. -/
theorem surrogates (hc : 0x10000 ≤ c.toNat) :
    ∃ high low, unitEscape (0xd800 + (c.toNat - 0x10000) / 0x400) ++
        unitEscape (0xdc00 + (c.toNat - 0x10000) % 0x400) = unitEscape high ++ unitEscape low ∧
      high < 0x10000 ∧ low < 0x10000 ∧ Text.isHighSurrogate high = true ∧
      Text.isLowSurrogate low = true ∧ Text.ofPair high low = c := by
  have hvalid : c.toNat < 0xd800 ∨ 0xdfff < c.toNat ∧ c.toNat < 0x110000 := c.valid
  refine ⟨_, _, rfl, by omega, by omega, ?_, ?_, ?_⟩
  · rw [Text.isHighSurrogate, decide_eq_true_eq]
    omega
  · rw [Text.isLowSurrogate, decide_eq_true_eq]
    omega
  · have hcode : 0x10000 + (0xd800 + (c.toNat - 0x10000) / 0x400 - 0xd800) * 0x400 +
        (0xdc00 + (c.toNat - 0x10000) % 0x400 - 0xdc00) = c.toNat := by omega
    rw [Text.ofPair, hcode, Char.ofNat_toNat]

/-- **The escape of a character beyond it** is read back from the pair that it is written as. -/
theorem codeEscape_pair {high low : Nat} (hhigh : high < 0x10000) (hlow : low < 0x10000)
    (hh : Text.isHighSurrogate high = true) (hl : Text.isLowSurrogate low = true)
    (htail : tail ≠ []) :
    codeEscape ('u' :: (hexDigits 4 high ++ (unitEscape low ++ tail))) =
      .ok (Text.ofPair high low, tail) := by
  have hlength := length_hexDigits 4 low
  have hpos := List.length_pos_iff.mpr htail
  simp only [unitEscape, List.cons_append]
  unfold codeEscape
  rw [codeUnit_unitEscape hhigh (by simp)]
  simp only [bind, Except.bind, pure, Except.pure, hh, if_true]
  rw [if_neg (by simp only [List.length_cons, List.length_append]; omega),
    codeUnit_unitEscape hlow htail]
  simp [hl]

/-- **A character is read back** from what it is written as, if something follows it. -/
theorem stringTail_escapeChar (c : Char) (htail : tail ≠ []) :
    stringTail opened (fuel + 1) seen (escapeChar c ++ tail) =
      stringTail opened fuel (c :: seen) tail := by
  unfold escapeChar
  -- seven short escapes, a character as it is, one code unit or two
  split_ifs with h₁ h₂ h₃ h₄ h₅ h₆ h₇ h₈ h₉
  · subst h₁; simp [stringTail, shortEscape?]
  · subst h₂; simp [stringTail, shortEscape?]
  · subst h₃; simp [stringTail, shortEscape?]
  · subst h₄; simp [stringTail, shortEscape?]
  · subst h₅; simp [stringTail, shortEscape?]
  · subst h₆; simp [stringTail, shortEscape?]
  · subst h₇; simp [stringTail, shortEscape?]
  · have hplain : ¬c.toNat ≤ 0x1f := by omega
    rw [List.singleton_append, stringTail]
    · rw [if_neg hplain]
    · exact h₁
    · rintro rfl -
      exact h₂ rfl
    · rintro _ _ rfl
      exact absurd rfl h₂
  · have hescape := codeEscape_unitEscape h₉ htail
    simp only [unitEscape, List.cons_append, stringTail, if_true, hescape]
    rfl
  · obtain ⟨high, low, heq, hhigh, hlow, hh, hl, hpair⟩ := surrogates (Nat.le_of_not_lt h₉)
    have hescape := codeEscape_pair hhigh hlow hh hl htail
    simp only [heq]
    rw [unitEscape, List.append_assoc]
    simp only [List.cons_append, stringTail, if_true, hescape, hpair]
    rfl

/-- **A text is read back** up to its closing quote. -/
theorem stringTail_escaped (h : s.length < fuel) :
    stringTail opened fuel seen (s.flatMap escapeChar ++ '\x22' :: rest) =
      .ok (.ofList (seen.reverse ++ s), rest) := by
  -- each character takes one step, however long its escape is
  induction s generalizing seen fuel with
  | nil =>
    obtain ⟨fuel, rfl⟩ := Nat.exists_eq_add_one.mpr h
    simp [stringTail]
  | cons c s ih =>
    obtain ⟨fuel, rfl⟩ := Nat.exists_eq_add_one.mpr (Nat.zero_lt_of_lt h)
    rw [List.flatMap_cons, List.append_assoc, stringTail_escapeChar c (by simp),
      ih (Nat.lt_of_succ_lt_succ h)]
    simp

/-- An escape is not empty. -/
theorem escapeChar_ne_nil (c : Char) : escapeChar c ≠ [] := by
  unfold escapeChar
  split_ifs <;> simp [unitEscape]

/-- A text is not longer than its escapes. -/
theorem length_le_escaped (s : List Char) : s.length ≤ (s.flatMap escapeChar).length := by
  induction s with
  | nil => exact Nat.le_refl _
  | cons c s ih =>
    have hpos := List.length_pos_iff.mpr (escapeChar_ne_nil c)
    rw [List.flatMap_cons, List.length_append, List.length_cons]
    omega

/-- **A text literal is read back** as the text. -/
theorem string_textLiteral (s : String) (rest : List Char) :
    ∃ r, (textLiteral s).toList ++ rest = '\x22' :: r ∧ string r = .ok (s, rest) := by
  refine ⟨s.toList.flatMap escapeChar ++ '\x22' :: rest, by simp [textLiteral], ?_⟩
  have hlength := length_le_escaped s.toList
  rw [string, stringTail_escaped (by rw [List.length_append]; omega)]
  simp

/-! ### Numbers -/

/-- No more of a number can follow: the text is at its end, or goes on with something else. -/
def Ended (rest : List Char) : Prop :=
  ∀ c ∈ rest.head?, isDigit c = false ∧ c ∉ ['.', 'e', 'E', '+', '-']

/-- What is taken from the start of a text is taken from it when something else follows. -/
theorem takeWhile_append {p : Char → Bool} (hrest : ∀ c ∈ rest.head?, p c = false)
    (s : List Char) : (s ++ rest).takeWhile p = s.takeWhile p := by
  induction s with
  | nil => cases rest with
    | nil => rfl
    | cons c rest => simp [hrest c rfl]
  | cons c s ih => by_cases hc : p c = true <;> simp [hc, ih]

/-- And what follows is left. -/
theorem dropWhile_append {p : Char → Bool} (hrest : ∀ c ∈ rest.head?, p c = false)
    (s : List Char) : (s ++ rest).dropWhile p = s.dropWhile p ++ rest := by
  induction s with
  | nil => cases rest with
    | nil => rfl
    | cons c rest => simp [hrest c rfl]
  | cons c s ih => by_cases hc : p c = true <;> simp [hc, ih]

/-- What follows a number begins with no digit. -/
theorem Ended.digits (h : Ended rest) : ∀ c ∈ rest.head?, isDigit c = false := fun c hc => (h c hc).1

/-- The integer digits, if there are any. -/
theorem wholeDigits_append (hrest : Ended rest) (h : (wholeDigits s).1 ≠ []) :
    wholeDigits (s ++ rest) = ((wholeDigits s).1, (wholeDigits s).2 ++ rest) := by
  unfold wholeDigits at h ⊢
  split at h
  · rfl
  · rename_i hzero
    have hne : s ≠ [] := by
      rintro rfl
      exact h rfl
    obtain ⟨c, r, rfl⟩ := List.exists_cons_of_ne_nil hne
    rw [List.cons_append]
    split
    · rename_i heq
      obtain rfl : c = '0' := (List.cons.inj heq).1
      exact absurd rfl (hzero r)
    · rw [← List.cons_append, takeWhile_append hrest.digits, dropWhile_append hrest.digits]

/-- The digits after a point. -/
theorem fractionDigits_append (hrest : Ended rest) (s : List Char) :
    fractionDigits (s ++ rest) = (fractionDigits s).map fun (ds, r) => (ds, r ++ rest) := by
  rcases s with _ | ⟨c, r⟩
  · rcases rest with _ | ⟨c, r⟩
    · rfl
    · have hc : c ≠ '.' := by
        rintro rfl
        exact (hrest '.' rfl).2 (by decide)
      simp [fractionDigits, hc]
  · by_cases hc : c = '.'
    · subst hc
      simp only [fractionDigits, List.cons_append, takeWhile_append hrest.digits,
        dropWhile_append hrest.digits]
      cases r.takeWhile isDigit <;> rfl
    · simp [fractionDigits, hc]

/-- The digits of an exponent. -/
def power (negative : Bool) (s : List Char) : Option (Int × List Char) :=
  match s.takeWhile isDigit with
  | [] => none
  | ds =>
    let n : Int := decimalNumber ds
    some (if negative then -n else n, s.dropWhile isDigit)

/-- They follow a letter, and a sign if there is one. -/
theorem exponentPart_cons (hc : c = 'e' ∨ c = 'E') (s : List Char) :
    exponentPart (c :: s) = match s with
      | '-' :: r => power true r
      | '+' :: r => power false r
      | _ => power false s := by
  rcases s with _ | ⟨d, r⟩
  · simp [exponentPart, hc, power]
  by_cases hminus : d = '-'
  · simp only [exponentPart, hc, if_true, hminus]
    rfl
  by_cases hplus : d = '+'
  · simp only [exponentPart, hc, if_true, hplus]
    rfl
  · simp [exponentPart, hc, hminus, hplus]
    rfl

/-- The digits of an exponent, with something after them. -/
theorem power_append (hrest : Ended rest) (negative : Bool) (s : List Char) :
    power negative (s ++ rest) = (power negative s).map fun (e, r) => (e, r ++ rest) := by
  unfold power
  rw [takeWhile_append hrest.digits, dropWhile_append hrest.digits]
  cases s.takeWhile isDigit <;> rfl

/-- The exponent. -/
theorem exponentPart_append (hrest : Ended rest) (s : List Char) :
    exponentPart (s ++ rest) = (exponentPart s).map fun (e, r) => (e, r ++ rest) := by
  -- what follows begins with neither the letter nor a sign, so that none of them is taken from it
  have hother {c : Char} (hmem : c ∈ ['.', 'e', 'E', '+', '-']) : ∀ d ∈ rest.head?, d ≠ c := by
    rintro d hd rfl
    exact (hrest d hd).2 hmem
  rcases s with _ | ⟨c, r⟩
  · rcases rest with _ | ⟨c, r⟩
    · rfl
    · have he : c ≠ 'e' ∧ c ≠ 'E' := ⟨hother (by decide) c rfl, hother (by decide) c rfl⟩
      simp [exponentPart, he.1, he.2]
  by_cases hc : c = 'e' ∨ c = 'E'
  · rw [List.cons_append, exponentPart_cons hc, exponentPart_cons hc]
    rcases r with _ | ⟨d, r⟩
    · rcases rest with _ | ⟨d, rest⟩
      · rfl
      · have hd : d ≠ '-' ∧ d ≠ '+' := ⟨hother (by decide) d rfl, hother (by decide) d rfl⟩
        have hpower := power_append hrest false []
        rw [List.nil_append] at hpower
        simp [hd.1, hd.2, hpower]
    · by_cases hminus : d = '-'
      · subst hminus
        exact power_append hrest true r
      by_cases hplus : d = '+'
      · subst hplus
        exact power_append hrest false r
      · have hpower := power_append hrest false (d :: r)
        rw [List.cons_append] at hpower
        simp [hminus, hplus, hpower]
  · simp [exponentPart, hc]

/-- A numeral without its sign, as it is read in a text. -/
def unsigned (negative : Bool) (text s : List Char) : Except Refusal (Value × List Char) :=
  match wholeDigits s with
  | ([], _) => failAt .valueExpected text
  | (whole, r₁) =>
    let (fraction, r₂) := (fractionDigits r₁).getD ([], r₁)
    match fraction, exponentPart r₂ with
    | [], none =>
      if Numeral.digitLimit < whole.length then failAt (.longInteger whole.length) text
      else
        let n : Int := decimalNumber whole
        .ok (.int (if negative then -n else n), r₁)
    | _, e =>
      let (power, r₃) := e.getD (0, r₂)
      .ok (.float (.ofDecimal negative (decimalNumber (whole ++ fraction))
        (power - fraction.length)), r₃)

/-- A number is a numeral after a minus sign, if there is one. -/
theorem number_cons_minus (s : List Char) : number ('-' :: s) = unsigned true ('-' :: s) s := rfl

/-- It is all of the numeral if there is none. -/
theorem number_of_head (h : s.head? ≠ some '-') : number s = unsigned false s s := by
  unfold number
  split
  rename_i negative r heq
  split at heq
  · exact absurd rfl h
  · cases heq
    rfl

/-- A numeral that is read is read with something else after it. -/
theorem unsigned_append (hrest : Ended rest) {negative : Bool} {text r : List Char}
    (h : unsigned negative text s = .ok (v, r)) (text' : List Char) :
    unsigned negative text' (s ++ rest) = .ok (v, r ++ rest) := by
  unfold unsigned at h ⊢
  rcases hwhole : wholeDigits s with ⟨_ | ⟨d, ds⟩, r₁⟩
  · rw [hwhole] at h
    cases h
  have hfraction : ((fractionDigits (r₁ ++ rest)).getD ([], r₁ ++ rest)) =
      (((fractionDigits r₁).getD ([], r₁)).1, ((fractionDigits r₁).getD ([], r₁)).2 ++ rest) := by
    rw [fractionDigits_append hrest]
    cases fractionDigits r₁ <;> rfl
  rw [wholeDigits_append hrest (by rw [hwhole]; simp), hwhole]
  rw [hwhole] at h
  simp only [hfraction] at h ⊢
  -- what is read of the fraction matters no more, only that the rest goes on with what follows
  generalize (fractionDigits r₁).getD ([], r₁) = part at h ⊢
  obtain ⟨fraction, r₂⟩ := part
  simp only [exponentPart_append hrest] at h ⊢
  rcases hpower : exponentPart r₂ with _ | ⟨e, r₃⟩ <;> rw [hpower] at h <;>
    rcases fraction with _ | ⟨c, cs⟩
  · -- an integer, which has to be short enough
    simp only [Option.map_none] at h ⊢
    by_cases hlong : Numeral.digitLimit < (d :: ds).length
    · rw [if_pos hlong] at h
      cases h
    · rw [if_neg hlong] at h ⊢
      cases h
      rfl
  all_goals
    cases h
    rfl

/-- **A number that is read** is read with something else after it. -/
theorem number_append (hrest : Ended rest) {r : List Char} (h : number s = .ok (v, r)) :
    number (s ++ rest) = .ok (v, r ++ rest) := by
  rcases s with _ | ⟨c, s⟩
  · cases h
  by_cases hc : c = '-'
  · subst hc
    exact unsigned_append hrest h _
  · rw [List.cons_append, number_of_head (by simpa using hc)]
    rw [number_of_head (by simpa using hc)] at h
    exact unsigned_append hrest h _

/-! ### Integers -/

/-- The digits of a number are digits. -/
theorem isDigit_of_mem_toDigits (h : c ∈ Nat.toDigits 10 n) : isDigit c = true := by
  have hdigit := Nat.isDigit_of_mem_toDigits (by decide) (by decide) h
  simpa [isDigit, Char.isDigit, Char.le_def] using hdigit

/-- They stand for the number. -/
theorem decimalNumber_toDigits (n : Nat) : decimalNumber (Nat.toDigits 10 n) = n := by
  have hsame : decimalNumber (Nat.toDigits 10 n) = Nat.ofDigitChars 10 (Nat.toDigits 10 n) 0 := by
    unfold decimalNumber
    rw [Nat.ofDigitChars_eq_foldl]
    congr 1
    funext sofar c
    rw [Nat.mul_comm]
    rfl
  rw [hsame, Nat.ofDigitChars_ten_toDigits]

/-- A positive number begins with another digit than zero. -/
theorem head?_toDigits (h : 0 < n) : (Nat.toDigits 10 n).head? ≠ some '0' := by
  induction n using Nat.strongRecOn with
  | ind n ih =>
    -- the first digit of a longer number is that of a tenth of it
    rw [Nat.toDigits_eq_if (by decide)]
    split
    · simp only [List.head?_cons, ne_eq, Option.some.injEq, Nat.digitChar_eq_zero]
      omega
    · have hhead := ih (n / 10) (by omega) (by omega)
      obtain ⟨d, ds, hdigits⟩ :=
        List.exists_cons_of_ne_nil (Nat.toDigits_ne_nil (n := n / 10) (b := 10))
      rwa [hdigits] at hhead ⊢

/-- **The digits of a number are read back** as its integer digits. -/
theorem wholeDigits_toDigits (n : Nat) :
    wholeDigits (Nat.toDigits 10 n) = (Nat.toDigits 10 n, []) := by
  rcases Nat.eq_zero_or_pos n with rfl | hpos
  · rfl
  have hall : ∀ c ∈ Nat.toDigits 10 n, isDigit c = true := fun c => isDigit_of_mem_toDigits
  unfold wholeDigits
  split
  · rename_i heq
    have hhead := head?_toDigits hpos
    rw [heq] at hhead
    exact absurd rfl hhead
  · rw [List.takeWhile_eq_self_iff.mpr hall, List.dropWhile_eq_nil_iff.mpr hall]

/-- A number that is not very long is read back from its digits. -/
theorem unsigned_toDigits (h : isLongInteger n = false) (negative : Bool) (text : List Char) :
    unsigned negative text (Nat.toDigits 10 n) = .ok (.int (if negative then -n else n), []) := by
  have hshort : ¬Numeral.digitLimit < (Nat.toDigits 10 n).length := by
    have hlimit : 0 < Numeral.digitLimit := by decide
    have hpower (k : Nat) : Binary64.tenTo k = 10 ^ k := rfl
    rw [isLongInteger, decide_eq_false_iff_not, Int.natAbs_natCast, Nat.not_le, hpower] at h
    rw [Nat.not_lt, Nat.length_toDigits_le_iff (by decide) hlimit]
    exact h
  unfold unsigned
  rw [wholeDigits_toDigits]
  have hne : Nat.toDigits 10 n ≠ [] := Nat.toDigits_ne_nil
  obtain ⟨d, ds, hdigits⟩ := List.exists_cons_of_ne_nil hne
  have hnumber := decimalNumber_toDigits n
  rw [hdigits] at hshort hnumber ⊢
  simp only [fractionDigits, exponentPart, Option.getD_none, if_neg hshort, hnumber]

/-- **An integer is read back** from its decimal text. -/
theorem number_toString {i : Int} (h : isLongInteger i = false) :
    number (toString i).toList = .ok (.int i, []) := by
  have hlong (n : Nat) (hn : i.natAbs = n) : isLongInteger n = false := by
    rw [isLongInteger, Int.natAbs_natCast, ← hn]
    exact h
  rw [Int.toString_eq_repr, Int.repr_eq_if]
  split
  · rename_i hpos
    have hhead : (Nat.toDigits 10 i.toNat).head? ≠ some '-' := fun heq => by
      have hdigit := isDigit_of_mem_toDigits (List.mem_of_head? heq)
      cases hdigit
    rw [Nat.toList_repr, number_of_head hhead, unsigned_toDigits (hlong i.toNat (by omega))]
    simp [Int.toNat_of_nonneg hpos]
  · rw [String.toList_append, Nat.toList_repr]
    show number ('-' :: Nat.toDigits 10 (-i).toNat) = _
    rw [number_cons_minus, unsigned_toDigits (hlong (-i).toNat (by omega))]
    have hneg : -((-i).toNat : Int) = i := by omega
    simp only [if_true, hneg]

/-! ### Scalars -/

/-- **A word is read back** as what it stands for. -/
theorem word?_append {w : String} (h : (w, v) ∈ words) (rest : List Char) :
    word? (w.toList ++ rest) = some (v, rest) := by
  simp only [words, List.mem_cons, Prod.mk.injEq, List.not_mem_nil, or_false] at h
  rcases h with ⟨rfl, rfl⟩ | ⟨rfl, rfl⟩ | ⟨rfl, rfl⟩ | ⟨rfl, rfl⟩ | ⟨rfl, rfl⟩ | ⟨rfl, rfl⟩ <;> rfl

/-- A word is read where one stands. -/
theorem exists_of_word? {r : List Char} (h : word? s = some (v, r)) :
    ∃ w, (w, v) ∈ words ∧ s = w.toList ++ r := by
  obtain ⟨⟨w, v'⟩, hmem, hw⟩ := List.exists_of_findSome?_eq_some h
  simp only at hw
  split_ifs at hw with hprefix
  cases hw
  obtain ⟨r, rfl⟩ := List.isPrefixOf_iff_prefix.mp hprefix
  exact ⟨w, hmem, by rw [← String.length_toList, List.drop_left]⟩

/-- A number that is read begins with a digit, or with a minus sign and a digit. -/
theorem exists_digit_of_number {r : List Char} (h : number s = .ok (v, r)) :
    ∃ d t, isDigit d = true ∧ (s = d :: t ∨ s = '-' :: d :: t) := by
  have hunsigned {negative : Bool} {text s : List Char} (h : unsigned negative text s = .ok (v, r)) :
      ∃ d t, isDigit d = true ∧ s = d :: t := by
    rcases s with _ | ⟨d, t⟩
    · cases h
    refine ⟨d, t, ?_, rfl⟩
    by_contra hd
    -- without a digit there are no whole digits to read
    have hnone : wholeDigits (d :: t) = ([], d :: t) := by
      have hzero : d ≠ '0' := by
        rintro rfl
        exact hd rfl
      simp [wholeDigits, hd, hzero]
    rw [unsigned, hnone] at h
    cases h
  rcases s with _ | ⟨c, s⟩
  · cases h
  by_cases hc : c = '-'
  · subst hc
    obtain ⟨d, t, hd, rfl⟩ := hunsigned h
    exact ⟨d, t, hd, .inr rfl⟩
  · rw [number_of_head (by simpa using hc)] at h
    obtain ⟨d, t, hd, heq⟩ := hunsigned h
    exact ⟨d, t, hd, .inl heq⟩

/-- No word begins like that. -/
theorem word?_of_digit {d : Char} {t : List Char} (hd : isDigit d = true)
    (h : s = d :: t ∨ s = '-' :: d :: t) : word? s = none := by
  by_contra hsome
  obtain ⟨⟨v, r⟩, hword⟩ := Option.ne_none_iff_exists'.mp hsome
  obtain ⟨w, hmem, rfl⟩ := exists_of_word? hword
  simp only [words, List.mem_cons, Prod.mk.injEq, List.not_mem_nil, or_false] at hmem
  rcases hmem with ⟨rfl, -⟩ | ⟨rfl, -⟩ | ⟨rfl, -⟩ | ⟨rfl, -⟩ | ⟨rfl, -⟩ | ⟨rfl, -⟩ <;>
    rcases h with h | h <;> cases h <;> cases hd

/-- A value that is neither a text nor a container is a word or a number. -/
theorem value_scalar {room : Nat} (h : ∀ c ∈ s.head?, c ∉ ['\x22', '{', '[']) :
    value (fuel + 1) room s = match word? s with
      | some found => .ok found
      | none => number s := by
  unfold value
  split
  · exact absurd (by decide) (h _ rfl)
  · exact absurd (by decide) (h _ rfl)
  · exact absurd (by decide) (h _ rfl)
  · rfl

/-- **A scalar that is read on its own** is read in a document, before what can follow it. -/
theorem value_append {room : Nat} (hrest : Ended rest) {r : List Char}
    (hs : ∀ c ∈ s.head?, c ∉ ['\x22', '{', '[']) (h : value 1 0 s = .ok (v, r)) :
    value (fuel + 1) room (s ++ rest) = .ok (v, r ++ rest) := by
  rw [value_scalar hs] at h
  rcases s with _ | ⟨c, s⟩
  · cases h
  rw [value_scalar (s := c :: s ++ rest) hs]
  cases hword : word? (c :: s) with
  | some found =>
    rw [hword] at h
    cases h
    obtain ⟨w, hmem, heq⟩ := exists_of_word? hword
    rw [heq, List.append_assoc, word?_append hmem]
  | none =>
    rw [hword] at h
    obtain ⟨d, t, hd, heq⟩ := exists_digit_of_number h
    have hnone : word? (c :: s ++ rest) = none := by
      refine word?_of_digit (t := t ++ rest) hd ?_
      rcases heq with heq | heq <;> rw [heq]
      · exact .inl rfl
      · exact .inr rfl
    rw [hnone]
    exact number_append hrest h

end ApiNodes.Json
