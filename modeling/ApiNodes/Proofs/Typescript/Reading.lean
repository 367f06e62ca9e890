import ApiNodes.Proofs.Typescript.Escaping
import ApiNodes.Proofs.Typescript.Passage
import Mathlib.Data.List.Forall2

namespace ApiNodes.Typescript

/-!
# Reading generated texts

Readers for the texts that are generated, each beside what it reads of a text that was written:
what follows a mark, items in a row, and unions of literals.  A literal can be read when no end of
line is in it, which is so in a sound text.

* `afterFirst?_append`, `readMany_append`, `exists_of_readMany` — a mark, and items in a row;
* `readUnion?_unionType` — a union is read as its members;
* `Scannable.not_mem_of_unionType` — those of a sound text hold no end of line.
-/

variable {α β : Type} {mark head rest s t : List Char} {v : String} {xs : List String}
  {read? : List Char → Option (α × List Char)}

/-! ### Marks -/

/-- What follows the first place of a mark in a text. -/
def afterFirst? (mark : List Char) : List Char → Option (List Char)
  | [] => Text.after? mark []
  | c :: s =>
    match Text.after? mark (c :: s) with
    | some rest => some rest
    | none => afterFirst? mark s

/-- A mark is found at the head of a text. -/
theorem afterFirst?_mark (mark rest : List Char) : afterFirst? mark (mark ++ rest) = some rest := by
  have hafter : Text.after? mark (mark ++ rest) = some rest := Text.after?_eq_some_iff.mpr rfl
  cases htext : mark ++ rest with
  | nil =>
    rw [htext] at hafter
    exact hafter
  | cons c s =>
    rw [htext] at hafter
    rw [afterFirst?, hafter]

/-- **A mark is found where it stands**, if it does not begin any earlier, not even with a part of
    what stands before it. -/
theorem afterFirst?_append (hhead : afterFirst? mark (head ++ mark.dropLast) = none)
    (rest : List Char) : afterFirst? mark (head ++ (mark ++ rest)) = some rest := by
  induction head with
  | nil => exact afterFirst?_mark mark rest
  | cons c head ih =>
    rw [List.cons_append, afterFirst?] at hhead
    cases hhere : Text.after? mark (c :: (head ++ mark.dropLast)) with
    | some r => simp [hhere] at hhead
    | none =>
      rw [hhere] at hhead
      have hnone : Text.after? mark (c :: (head ++ (mark ++ rest))) = none := by
        rw [Option.eq_none_iff_forall_ne_some]
        intro r hr
        -- the mark would begin here, and all of it but the last character is known
        have hmark : mark <+: c :: (head ++ (mark ++ rest)) :=
          ⟨r, (Text.after?_eq_some_iff.mp hr).symm⟩
        have hshort : c :: (head ++ mark.dropLast) <+: c :: (head ++ (mark ++ rest)) :=
          List.cons_prefix_cons.mpr ⟨rfl, (List.prefix_append_right_inj head).mpr
            (mark.dropLast_prefix.trans (List.prefix_append mark rest))⟩
        obtain ⟨r', hr'⟩ := List.prefix_of_prefix_length_le hmark hshort (by
          rw [List.length_cons, List.length_append, List.length_dropLast]
          omega)
        rw [Text.after?_eq_some_iff.mpr hr'.symm] at hhere
        cases hhere
      rw [List.cons_append, afterFirst?, hnone]
      exact ih hhead

/-! ### Items in a row -/

/-- Read items as long as there is one: the items, and what follows them. -/
def readMany (read? : List Char → Option (α × List Char)) (s : List Char) : List α × List Char :=
  match read? s with
  | none => ([], s)
  | some (a, rest) =>
    if rest.length < s.length then (a :: (readMany read? rest).1, (readMany read? rest).2)
    else ([], s)
termination_by s.length

/-- **Items that are written in a row are read**, up to where there is none. -/
theorem readMany_append {items : List β} {values : List α} {print : β → List Char}
    (hitems : List.Forall₂
      (fun b a => print b ≠ [] ∧ ∀ rest, read? (print b ++ rest) = some (a, rest)) items values)
    (hstop : read? rest = none) :
    readMany read? (items.flatMap print ++ rest) = (values, rest) := by
  induction hitems with
  | nil =>
    show readMany read? rest = _
    rw [readMany, hstop]
  | @cons b a items values hb _ ih =>
    -- an item that is read leaves less, so that the next one is read as well
    have hshort : (items.flatMap print ++ rest).length <
        (print b ++ (items.flatMap print ++ rest)).length := by
      have hpos := List.length_pos_iff.mpr hb.1
      simp only [List.length_append]
      omega
    rw [List.flatMap_cons, List.append_assoc, readMany, hb.2]
    dsimp only
    rw [if_pos hshort, ih]

/-- So they are where each has its value. -/
theorem readMany_flatMap {items : List β} {print : β → List Char} {value : β → α}
    (hread : ∀ b ∈ items, ∀ rest, read? (print b ++ rest) = some (value b, rest))
    (hprint : ∀ b ∈ items, print b ≠ []) (hstop : read? rest = none) :
    readMany read? (items.flatMap print ++ rest) = (items.map value, rest) := by
  refine readMany_append (List.forall₂_map_right_iff.mpr (List.forall₂_same.mpr ?_)) hstop
  exact fun b hb => ⟨hprint b hb, hread b hb⟩

/-- What is read stands in the text, item after item, in front of what is left. -/
theorem exists_of_readMany {print : β → List Char} {P : β → α → Prop}
    (hread : ∀ s a rest, read? s = some (a, rest) → ∃ b, s = print b ++ rest ∧ P b a)
    (s : List Char) :
    ∃ items, s = items.flatMap print ++ (readMany read? s).2 ∧
      List.Forall₂ P items (readMany read? s).1 := by
  induction s using readMany.induct read? with
  | case1 s hnone =>
    rw [readMany, hnone]
    exact ⟨[], rfl, .nil⟩
  | case2 s a rest hsome hshort ih =>
    rw [readMany, hsome]
    dsimp only
    rw [if_pos hshort]
    obtain ⟨b, rfl, hb⟩ := hread s a rest hsome
    obtain ⟨items, hitems, hvalues⟩ := ih
    refine ⟨b :: items, ?_, .cons hb hvalues⟩
    rw [List.flatMap_cons, List.append_assoc]
    exact congrArg (print b ++ ·) hitems
  | case3 s a rest hsome hlong =>
    rw [readMany, hsome]
    dsimp only
    rw [if_neg hlong]
    exact ⟨[], rfl, .nil⟩

/-! ### Literals -/

/-- The text of a literal. -/
theorem toList_literal (v : String) :
    (literal v).toList = '\x27' :: (escapeChars v.toList ++ ['\x27']) := by
  have hescape : (escape v).toList = escapeChars v.toList := String.toList_ofList
  rw [literal, String.toList_append, String.toList_append, hescape]
  rfl

/-- The text of literals with a separator between each two: the first one, and the others behind a
    separator each. -/
theorem toList_intercalate_literal (separator v : String) (xs : List String) :
    (String.intercalate separator ((v :: xs).map literal)).toList =
      (literal v).toList ++ xs.flatMap fun x => separator.toList ++ (literal x).toList := by
  induction xs generalizing v with
  | nil =>
    rw [List.map_cons, List.map_nil, String.intercalate_singleton, List.flatMap_nil, List.append_nil]
  | cons x xs ih =>
    rw [List.map_cons, String.intercalate_cons_of_ne_nil (by simp), String.toList_append,
      String.toList_append, ih, List.flatMap_cons]
    simp only [List.append_assoc]

/-- Read a literal that stands behind a mark. -/
def literalAfter? (mark : String) (s : List Char) : Option (String × List Char) :=
  (Text.after? mark.toList s).bind readLiteral?

/-- A literal in one line is read as what it denotes. -/
theorem readLiteral?_literal (h : '\n' ∉ v.toList) (rest : List Char) :
    readLiteral? ((literal v).toList ++ rest) = some (v, rest) := by
  rw [toList_literal, List.cons_append, List.append_assoc, List.singleton_append,
    readLiteral?_escapeChars h, String.ofList_toList]

/-- So it is behind its mark. -/
theorem literalAfter?_literal (mark : String) (h : '\n' ∉ v.toList) (rest : List Char) :
    literalAfter? mark (mark.toList ++ ((literal v).toList ++ rest)) = some (v, rest) := by
  have hafter : Text.after? mark.toList (mark.toList ++ ((literal v).toList ++ rest)) =
      some ((literal v).toList ++ rest) := Text.after?_eq_some_iff.mpr rfl
  rw [literalAfter?, hafter, Option.bind_some, readLiteral?_literal h]

/-! ### Unions -/

/-- Read the members of a union of literals, of which `never` has none. -/
def readUnion? (s : List Char) : Option (List String × List Char) :=
  match Text.after? "never".toList s with
  | some rest => some ([], rest)
  | none => (readLiteral? s).map fun first =>
    let others := readMany (literalAfter? " | ") first.2
    (first.1 :: others.1, others.2)

/-- The text of a union: the first member, and the others behind their bars. -/
theorem toList_unionType (v : String) (xs : List String) :
    (unionType (v :: xs)).toList =
      (literal v).toList ++ xs.flatMap fun x => " | ".toList ++ (literal x).toList :=
  toList_intercalate_literal " | " v xs

/-- **A union is read as its members**, whatever quotes, backslashes and bars they hold. -/
theorem readUnion?_unionType (h : ∀ x ∈ xs, '\n' ∉ x.toList)
    (hstop : literalAfter? " | " rest = none) :
    readUnion? ((unionType xs).toList ++ rest) = some (xs, rest) := by
  cases xs with
  | nil =>
    have hnever : Text.after? "never".toList ((unionType []).toList ++ rest) = some rest :=
      Text.after?_eq_some_iff.mpr rfl
    rw [readUnion?, hnever]
  | cons v xs =>
    have hnever : Text.after? "never".toList ((unionType (v :: xs)).toList ++ rest) = none := by
      rw [toList_unionType, toList_literal]
      rfl
    have hothers : readMany (literalAfter? " | ")
        ((xs.flatMap fun x => " | ".toList ++ (literal x).toList) ++ rest) = (xs.map id, rest) := by
      refine readMany_flatMap (fun x hx rest => ?_) (fun x _ => ?_) hstop
      · rw [List.append_assoc]
        exact literalAfter?_literal " | " (h x (List.mem_cons_of_mem v hx)) rest
      · simp
    rw [readUnion?, hnever]
    dsimp only
    rw [toList_unionType, List.append_assoc, readLiteral?_literal (h v List.mem_cons_self),
      Option.map_some, hothers, List.map_id]

/-! ### Sound texts -/

/-- A scan that stands in code comes to the end of a text without finding anything wrong. -/
def Scannable (s : List Char) : Prop :=
  ∃ σ : Scan, σ.mode = .code ∧ (σ.run s).bind Scan.finish = .ok ()

/-- What follows fixed text in a sound one can be scanned, if the fixed text leads back to code. -/
theorem scannable_of_imbalance? {τ : Scan} (hhead : Scan.run {} head = .ok τ)
    (hcode : τ.mode = .code) (h : imbalance? (head ++ s) = none) : Scannable s := by
  refine ⟨τ, hcode, ?_⟩
  unfold imbalance? at h
  rw [Scan.run_append, hhead] at h
  split at h
  · rename_i hfinish
    exact hfinish
  · cases h

/-- What follows a passage of code. -/
theorem Scannable.of_passes {b : Bool} (h : Scannable (t ++ s)) (ht : Passes .code t ⟨.code, b⟩) :
    Scannable s := by
  obtain ⟨σ, hcode, hfinish⟩ := h
  obtain ⟨w, hrun, hspot, -⟩ := ht ⟨σ, false⟩ ⟨hcode, id⟩
  refine ⟨w.scan, hspot.region, ?_⟩
  rw [Scan.run_append, Watch.scan_run hrun] at hfinish
  exact hfinish

/-- **A literal that is scanned holds no end of line**, and what follows it is code again. -/
theorem Scannable.of_literal (h : Scannable ((literal v).toList ++ s)) :
    '\n' ∉ v.toList ∧ Scannable s := by
  obtain ⟨⟨mode, stack, line⟩, hcode, hfinish⟩ := h
  cases hcode
  rw [toList_literal, List.cons_append, List.append_assoc, List.singleton_append,
    finish_escapeChars (by decide)] at hfinish
  split at hfinish
  · rename_i hpass
    exact ⟨hpass.resolve_left (by decide), _, rfl, hfinish⟩
  · cases hfinish

/-- The members of a union in a sound text hold no end of line. -/
theorem Scannable.not_mem_of_unionType (h : Scannable ((unionType xs).toList ++ s)) :
    ∀ x ∈ xs, '\n' ∉ x.toList := by
  have hothers : ∀ xs : List String,
      Scannable ((xs.flatMap fun x => " | ".toList ++ (literal x).toList) ++ s) →
        ∀ x ∈ xs, '\n' ∉ x.toList := by
    intro xs h
    induction xs with
    | nil => simp
    | cons x xs ih =>
      rw [List.flatMap_cons, List.append_assoc, List.append_assoc] at h
      have hbar : Passes .code " | ".toList .code := passes_of_chars (by decide)
      obtain ⟨hx, hrest⟩ := (h.of_passes hbar).of_literal
      exact List.forall_mem_cons.mpr ⟨hx, ih hrest⟩
  cases xs with
  | nil => simp
  | cons v xs =>
    rw [toList_unionType, List.append_assoc] at h
    obtain ⟨hv, hrest⟩ := h.of_literal
    exact List.forall_mem_cons.mpr ⟨hv, hothers xs hrest⟩

end ApiNodes.Typescript
