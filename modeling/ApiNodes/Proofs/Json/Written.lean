import ApiNodes.Document.File
import ApiNodes.Document.Json.Writer
import ApiNodes.Proofs.Name.Unique

namespace ApiNodes.Json

open Name (All)
open Text (hexDigits)

/-!
# Characters of JSON texts

JSON texts are written in lines of printable ASCII, so that a file with one holds the text that was
written: there are no line breaks in it but line feeds.

* `all_text` — numbers;
* `all_write` — values;
* `fileText?_toUTF8` — a text in a file.
-/

variable {c : Char} {s text : String} {texts : List String} {policy : Foreign} {depth : Nat}

/-- A line feed, or a printable character of ASCII. -/
def InLines (c : Char) : Prop := c = '\n' ∨ 0x20 ≤ c.toNat ∧ c.toNat < 0x7f

instance (c : Char) : Decidable (InLines c) := inferInstanceAs (Decidable (_ ∨ _))

instance (s : List Char) : Decidable (All InLines s) := List.decidableBAll InLines s

/-! ### Texts -/

/-- Hexadecimal digits. -/
theorem all_hexDigits (width n : Nat) : All InLines (hexDigits width n) := by
  have hdigit : ∀ d, d < 16 → InLines (Nat.digitChar d) := by decide
  induction width generalizing n with
  | zero => exact fun c hc => by cases hc
  | succ width ih =>
    refine (ih _).append fun c hc => ?_
    rw [List.mem_singleton.mp hc]
    exact hdigit _ (Nat.mod_lt _ (by decide))

/-- The escape of a code unit. -/
theorem all_unitEscape (n : Nat) : All InLines (unitEscape n) :=
  All.append (s := ['\\', 'u']) (by decide) (all_hexDigits 4 n)

/-- The escape of any character. -/
theorem all_escapeChar (c : Char) : All InLines (escapeChar c) := by
  unfold escapeChar
  split_ifs with _ _ _ _ _ _ _ hplain
  any_goals decide
  · intro d hd
    rw [List.mem_singleton.mp hd]
    exact .inr hplain
  · exact all_unitEscape _
  · exact (all_unitEscape _).append (all_unitEscape _)

/-- A text literal. -/
theorem all_textLiteral (s : String) : All InLines (textLiteral s).toList := by
  have hquote : All InLines ['\x22'] := by decide
  have hinner : All InLines (s.toList.flatMap escapeChar) := fun c hc => by
    obtain ⟨d, -, hd⟩ := List.mem_flatMap.mp hc
    exact all_escapeChar d c hd
  rw [textLiteral, String.toList_ofList]
  exact (hquote.append hinner).append hquote

/-! ### Numbers -/

/-- The digits of a number. -/
theorem all_toDigits (n : Nat) : All InLines (Nat.toDigits 10 n) := by
  intro c hc
  have hdigit := Nat.isDigit_of_mem_toDigits (by decide) (by decide) hc
  simp only [Char.isDigit, Bool.and_eq_true, decide_eq_true_eq, UInt32.le_iff_toNat_le] at hdigit
  refine .inr ⟨?_, ?_⟩
  · exact Nat.le_trans (by decide) hdigit.1
  · exact Nat.lt_of_le_of_lt hdigit.2 (by decide)

/-- The decimal text of a natural number. -/
theorem all_toString_nat (n : Nat) : All InLines (toString n).toList := by
  rw [Nat.toString_eq_repr, Nat.toList_repr]
  exact all_toDigits n

/-- The decimal text of an integer. -/
theorem all_toString (i : Int) : All InLines (toString i).toList := by
  rw [Int.toString_eq_repr, Int.repr_eq_if]
  split
  · rw [Nat.toList_repr]
    exact all_toDigits _
  · rw [String.toList_append, Nat.toList_repr]
    exact All.append (by decide) (all_toDigits _)

/-- An exponent. -/
theorem all_exponentText (e : Int) : All InLines (Binary64.exponentText e).toList := by
  unfold Binary64.exponentText
  simp only [String.toList_append]
  refine All.append (All.append (by decide) ?_) ?_
  · split_ifs <;> decide
  · split_ifs
    · rw [String.toList_append]
      exact All.append (by decide) (all_toString_nat _)
    · exact all_toString_nat _

/-- A number without its sign. -/
theorem all_magnitudeText (layout : Binary64.Layout) (m : Nat) (q : Int) :
    All InLines (Binary64.magnitudeText layout m q).toList := by
  unfold Binary64.magnitudeText
  split
  · decide
  obtain ⟨d, unit⟩ := Binary64.shortestDigits m q
  -- the digits that are shown, without the zeros at their end
  have hdigits :
      All InLines ((Nat.toDigits 10 d).reverse.dropWhile (· == '0')).reverse := fun c hc =>
    all_toDigits d c (List.mem_reverse.mp ((List.dropWhile_sublist _).subset (List.mem_reverse.mp hc)))
  have hzeros (n : Nat) : All InLines (List.replicate n '0') := fun c hc => by
    rw [List.eq_of_mem_replicate hc]
    decide
  simp only
  generalize ((Nat.toDigits 10 d).reverse.dropWhile (· == '0')).reverse = digits at hdigits ⊢
  split_ifs with hpositional hsmall hpart
  · -- all digits are behind the point
    rw [String.toList_ofList]
    exact All.append (All.append (s := ['0', '.']) (by decide) (hzeros _)) hdigits
  · -- all digits are before it
    rw [String.toList_ofList]
    exact All.append ((hdigits.subset fun c => List.mem_of_mem_take).append (hzeros _)) (by decide)
  · -- the point is between the digits
    rw [String.toList_ofList]
    refine All.append ((hdigits.subset fun c => List.mem_of_mem_take).append (hzeros _)) ?_
    exact All.append (s := ['.']) (by decide) (hdigits.subset fun c => List.mem_of_mem_drop)
  · -- with an exponent: one digit before the point, and the rest behind it
    rcases digits with _ | ⟨c, _ | ⟨c', r⟩⟩
    · exact fun c hc => (by decide : All InLines "0.0".toList) c hc
    · rw [String.toList_append, String.toList_ofList]
      exact hdigits.append (all_exponentText _)
    · rw [String.toList_append, String.toList_ofList]
      refine All.append (fun d hd => ?_) (all_exponentText _)
      rcases List.mem_cons.mp hd with rfl | hd
      · exact hdigits d List.mem_cons_self
      rcases List.mem_cons.mp hd with rfl | hd
      · decide
      · exact hdigits d (List.mem_cons_of_mem _ hd)

/-- **The text of a number.** -/
theorem all_text (x : Binary64) : All InLines (x.text Binary64.jsonLayout).toList := by
  have hsign (negative : Bool) : All InLines (if negative then "-" else "").toList := by
    cases negative <;> decide
  cases x with
  | nan => decide
  | infinite negative =>
    rw [Binary64.text, String.toList_append]
    exact (hsign negative).append (by decide)
  | finite negative m q =>
    rw [Binary64.text, String.toList_append]
    exact (hsign negative).append (all_magnitudeText _ m q)

/-! ### Values -/

/-- A margin. -/
theorem all_margin (depth : Nat) : All InLines (margin depth).toList := by
  have hblank : All InLines (List.replicate (2 * depth) ' ') := fun c hc => by
    rw [List.eq_of_mem_replicate hc]
    decide
  rw [margin, String.toList_ofList]
  exact All.append (s := ['\n']) (by decide) hblank

/-- Lines between brackets. -/
theorem all_block {opener closer : String} (hopener : All InLines opener.toList)
    (hcloser : All InLines closer.toList) (h : ∀ t ∈ texts, All InLines t.toList) :
    All InLines (block opener closer depth texts).toList := by
  cases texts with
  | nil =>
    rw [block, String.toList_append]
    exact hopener.append hcloser
  | cons t texts =>
    have hseparator : All InLines ("," ++ margin (depth + 1)).toList := by
      rw [String.toList_append]
      exact All.append (by decide) (all_margin _)
    simp only [block, String.toList_append]
    exact (((hopener.append (all_margin _)).append (All.intercalate hseparator h)).append
      (all_margin _)).append hcloser

/-- The text of an integer. -/
theorem all_integerText {i : Int} (h : integerText i = .ok s) : All InLines s.toList := by
  unfold integerText at h
  cases hlong : isLongInteger i <;> rw [hlong] at h <;> cases h
  exact all_toString i

/-- A value that JSON has no form for. -/
theorem all_foreign {v : Value} (h : foreign policy v = .ok s) : All InLines s.toList := by
  unfold foreign at h
  split at h
  · cases h
  · cases h
    exact all_textLiteral _
  · cases h

/-- Two steps in a row give a result when both do. -/
theorem exists_of_bind {ε α β : Type} {m : Except ε α} {f : α → Except ε β} {b : β}
    (h : (m >>= f) = .ok b) : ∃ a, m = .ok a ∧ f a = .ok b := by
  cases m with
  | error e => cases h
  | ok a => exact ⟨a, rfl, h⟩

mutual

/-- **The JSON form of a value.** -/
theorem all_write (v : Value) {depth : Nat} {s : String} (h : write policy depth v = .ok s) :
    All InLines s.toList := by
  cases v with
  | null => cases h; decide
  | bool b => cases h; cases b <;> decide
  | int i =>
    rw [write] at h
    exact all_integerText h
  | float x => cases h; exact all_text x
  | str t => cases h; exact all_textLiteral t
  | list xs =>
    rw [write] at h
    obtain ⟨texts, htexts, hs⟩ := exists_of_bind h
    cases hs
    exact all_block (by decide) (by decide) (all_writeItems xs htexts)
  | map es =>
    rw [write] at h
    obtain ⟨texts, htexts, hs⟩ := exists_of_bind h
    cases hs
    exact all_block (by decide) (by decide) (all_writeEntries es htexts)
  | pair a b =>
    rw [write] at h
    obtain ⟨first, ha, h⟩ := exists_of_bind h
    obtain ⟨second, hb, hs⟩ := exists_of_bind h
    cases hs
    refine all_block (by decide) (by decide) fun t ht => ?_
    rcases List.mem_pair.mp ht with rfl | rfl
    · exact all_write a ha
    · exact all_write b hb
  | date _ | timestamp _ | bytes _ | set _ =>
    rw [write] at h
    exact all_foreign h
  | knot _ body =>
    rw [write] at h
    exact all_write body h
  | again _ => cases h

/-- The JSON forms of items. -/
theorem all_writeItems (xs : List Value) {depth : Nat} {texts : List String}
    (h : writeItems policy depth xs = .ok texts) : ∀ t ∈ texts, All InLines t.toList := by
  cases xs with
  | nil =>
    cases h
    exact fun t ht => by cases ht
  | cons x xs =>
    rw [writeItems] at h
    obtain ⟨first, hx, h⟩ := exists_of_bind h
    obtain ⟨others, hxs, hs⟩ := exists_of_bind h
    cases hs
    exact List.forall_mem_cons.mpr ⟨all_write x hx, all_writeItems xs hxs⟩

/-- The JSON forms of entries. -/
theorem all_writeEntries (es : List (Value × Value)) {depth : Nat} {texts : List String}
    (h : writeEntries policy depth es = .ok texts) : ∀ t ∈ texts, All InLines t.toList := by
  rcases es with _ | ⟨⟨k, v⟩, es⟩
  · cases h
    exact fun t ht => by cases ht
  · rw [writeEntries] at h
    obtain ⟨key, -, h⟩ := exists_of_bind h
    obtain ⟨first, hv, h⟩ := exists_of_bind h
    obtain ⟨others, hes, hs⟩ := exists_of_bind h
    cases hs
    refine List.forall_mem_cons.mpr ⟨?_, all_writeEntries es hes⟩
    rw [String.toList_append, String.toList_append]
    exact ((all_textLiteral _).append (by decide)).append (all_write v hv)

end

/-! ### Files -/

/-- A text without carriage returns has no line breaks but line feeds. -/
theorem lineFeeds_eq_self {s : List Char} (h : All InLines s) : lineFeeds s = s := by
  fun_induction lineFeeds s with
  | case1 r ih => exact absurd (h '\r' List.mem_cons_self) (by decide)
  | case2 r _ ih => exact absurd (h '\r' List.mem_cons_self) (by decide)
  | case3 c r _ _ ih => rw [ih fun d hd => h d (List.mem_cons_of_mem c hd)]
  | case4 => rfl

/-- **A file holds the text that was written**, if it is a text in such lines. -/
theorem fileText?_toUTF8 (h : All InLines s.toList) : fileText? s.toUTF8 = some s := by
  have hdecode : String.fromUTF8? s.toUTF8 = some s := by
    have hvalid : s.toUTF8.IsValidUTF8 := s.isValidUTF8
    rw [String.fromUTF8?, dif_pos hvalid]
    rfl
  rw [fileText?, hdecode, Option.map_some, lineFeeds_eq_self h, String.ofList_toList]

end ApiNodes.Json
