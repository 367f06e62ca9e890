import ApiNodes.Proofs.Json.Literals
import ApiNodes.Proofs.Json.Written

namespace ApiNodes.Json

/-!
# Documents that are read back

A document is written and read back as itself, if its mappings have different text keys, its
numbers are read back from their decimal texts, and its containers are not nested beyond the limit
(`Faithful`).

* `Faithful.begins` — how the form of such a value begins;
* `reads_all` — the form is read back, in a document too;
* `Faithful.read_document` — documents.
-/

variable {v : Value} {xs : List Value} {es : List (Value × Value)} {room depth fuel : Nat}
  {text : String} {texts : List String} {s rest : List Char}

/-- Entries under different texts. -/
def TextKeys (es : List (Value × Value)) : Prop :=
  ∃ names : List String, names.Nodup ∧ es.map Prod.fst = names.map .str

/-- A value that its JSON form stands for alone, with containers that are opened inside one another
    `room` times at most. -/
inductive Faithful : Nat → Value → Prop
  | null {room : Nat} : Faithful room .null
  | bool {room : Nat} (b : Bool) : Faithful room (.bool b)
  | int {room : Nat} {i : Int} (short : isLongInteger i = false) : Faithful room (.int i)
  | float {room : Nat} {x : Binary64}
      (back : value 1 0 (x.text Binary64.jsonLayout).toList = .ok (.float x, [])) :
      Faithful room (.float x)
  | str {room : Nat} (s : String) : Faithful room (.str s)
  | list {room : Nat} {xs : List Value} (items : ∀ x ∈ xs, Faithful room x) :
      Faithful (room + 1) (.list xs)
  | map {room : Nat} {es : List (Value × Value)} (keys : TextKeys es)
      (values : ∀ e ∈ es, Faithful room e.2) : Faithful (room + 1) (.map es)

/-! ### Scalars -/

/-- A text that is read as a value, and not as a text or a container. -/
structure Scalar (s : List Char) (v : Value) : Prop where
  plain : ∀ c ∈ s.head?, c ∉ ['\x22', '{', '[']
  read : value 1 0 s = .ok (v, [])

/-- A word. -/
theorem scalar_word {w : String} (h : (w, v) ∈ words) : Scalar w.toList v := by
  have hword := word?_append h []
  have hplain : ∀ c ∈ w.toList.head?, c ∉ ['\x22', '{', '['] := by
    intro c hc
    simp only [words, List.mem_cons, Prod.mk.injEq, List.not_mem_nil, or_false] at h
    rcases h with ⟨rfl, -⟩ | ⟨rfl, -⟩ | ⟨rfl, -⟩ | ⟨rfl, -⟩ | ⟨rfl, -⟩ | ⟨rfl, -⟩ <;> cases hc <;>
      decide
  rw [List.append_nil] at hword
  exact ⟨hplain, by rw [value_scalar hplain, hword]⟩

/-- An integer. -/
theorem scalar_int {i : Int} (h : isLongInteger i = false) : Scalar (toString i).toList (.int i) := by
  have hnumber := number_toString h
  obtain ⟨d, t, hd, hs⟩ := exists_digit_of_number hnumber
  have hplain : ∀ c ∈ (toString i).toList.head?, c ∉ ['\x22', '{', '['] := by
    rcases hs with hs | hs <;> rw [hs] <;> intro c hc <;> cases hc
    · intro hmem
      simp only [List.mem_cons, List.not_mem_nil, or_false] at hmem
      rcases hmem with rfl | rfl | rfl <;> cases hd
    · decide
  exact ⟨hplain, by rw [value_scalar hplain, word?_of_digit hd hs, hnumber]⟩

/-- A number with a fraction. -/
theorem scalar_float {x : Binary64} (h : value 1 0 s = .ok (.float x, [])) : Scalar s (.float x) := by
  refine ⟨fun c hc hmem => ?_, h⟩
  rcases s with _ | ⟨d, t⟩
  · cases hc
  cases hc
  simp only [List.mem_cons, List.not_mem_nil, or_false] at hmem
  rcases hmem with rfl | rfl | rfl
  · rw [value] at h
    obtain ⟨_, -, h⟩ := exists_of_bind h
    cases h
  · cases h
  · cases h

/-- What is read is the beginning of a value: neither white space nor a closing bracket nor a mark
    of the byte order. -/
def Begins (s : List Char) : Prop :=
  ∃ c r, s = c :: r ∧ isGap c = false ∧ c ∉ [']', '}'] ∧ c.toNat ≠ 0xfeff

/-- A scalar is one. -/
theorem Scalar.begins (h : Scalar s v) : Begins s := by
  have hread := h.read
  rw [value_scalar h.plain] at hread
  cases hword : word? s with
  | some found =>
    obtain ⟨v, r⟩ := found
    obtain ⟨w, hmem, rfl⟩ := exists_of_word? hword
    simp only [words, List.mem_cons, Prod.mk.injEq, List.not_mem_nil, or_false] at hmem
    rcases hmem with ⟨rfl, -⟩ | ⟨rfl, -⟩ | ⟨rfl, -⟩ | ⟨rfl, -⟩ | ⟨rfl, -⟩ | ⟨rfl, -⟩ <;>
      exact ⟨_, _, rfl, by decide, by decide, by decide⟩
  | none =>
    rw [hword] at hread
    obtain ⟨d, t, hd, hs⟩ := exists_digit_of_number hread
    have hgap : isGap d = false := by
      by_contra hgap
      simp only [isGap, Bool.not_eq_false, Bool.or_eq_true, beq_iff_eq] at hgap
      rcases hgap with ((rfl | rfl) | rfl) | rfl <;> cases hd
    have hdigit : isGap d = false ∧ d ∉ [']', '}'] ∧ d.toNat ≠ 0xfeff := by
      refine ⟨hgap, fun hmem => ?_, fun hmark => ?_⟩
      · rcases List.mem_pair.mp hmem with rfl | rfl <;> cases hd
      · rw [← Char.ofNat_toNat d, hmark] at hd
        cases hd
    rcases hs with rfl | rfl
    · exact ⟨d, t, rfl, hdigit⟩
    · exact ⟨'-', d :: t, rfl, by decide, by decide, by decide⟩

/-! ### White space -/

/-- White space is passed over up to the beginning of a value. -/
theorem Begins.skipGap (h : Begins s) (rest : List Char) : skipGap (s ++ rest) = s ++ rest := by
  obtain ⟨c, r, rfl, hgap, -⟩ := h
  simp [Json.skipGap, hgap]

/-- So is a margin. -/
theorem skipGap_margin (depth : Nat) (s : List Char) :
    skipGap ((margin depth).toList ++ s) = skipGap s := by
  have hblank : ∀ c ∈ (margin depth).toList, isGap c = true := by
    rw [margin, String.toList_ofList]
    intro c hc
    rcases List.mem_cons.mp hc with rfl | hc
    · rfl
    · rw [List.eq_of_mem_replicate hc]
      rfl
  rw [Json.skipGap, List.dropWhile_append_of_pos hblank]
  rfl

/-- After a margin a value has ended. -/
theorem ended_margin (depth : Nat) (s : List Char) : Ended ((margin depth).toList ++ s) := by
  rw [margin, String.toList_ofList]
  intro c hc
  cases hc
  decide

/-! ### Reading -/

/-- Values are read back with so many steps. -/
def Reads (fuel : Nat) : Prop :=
  ∀ {room depth : Nat} {v : Value} {text : String} {rest : List Char}, Faithful room v →
    write .refuse depth v = .ok text → 2 * text.length ≤ fuel → Ended rest →
    value fuel room (text.toList ++ rest) = .ok (v, rest)

/-- The lines of a container after its margin, with its closing bracket. -/
def linesTail (closer : Char) (depth : Nat) (texts : List String) : List Char :=
  (String.intercalate ("," ++ margin (depth + 1)) texts).toList ++
    ((margin depth).toList ++ [closer])

/-- A container is its opening bracket, a margin and its lines. -/
theorem toList_block {opener closer : Char} {o c : String} (ho : o.toList = [opener])
    (hc : c.toList = [closer]) (depth : Nat) {texts : List String} (h : texts ≠ []) :
    (block o c depth texts).toList =
      opener :: ((margin (depth + 1)).toList ++ linesTail closer depth texts) := by
  cases texts with
  | nil => exact absurd rfl h
  | cons t texts => simp [block, linesTail, ho, hc, String.toList_append]

/-- A container begins with its bracket. -/
theorem exists_block {opener : Char} {o c : String} (ho : o.toList = [opener]) (depth : Nat)
    (texts : List String) : ∃ r, (block o c depth texts).toList = opener :: r := by
  cases texts <;> simp [block, ho, String.toList_append]

/-- The last line. -/
theorem linesTail_singleton (closer : Char) (depth : Nat) (t : String) :
    linesTail closer depth [t] = t.toList ++ ((margin depth).toList ++ [closer]) := by
  rw [linesTail, String.intercalate_singleton]

/-- Another line before the others. -/
theorem linesTail_cons (closer : Char) (depth : Nat) (t : String) (h : texts ≠ []) :
    linesTail closer depth (t :: texts) =
      t.toList ++ (',' :: ((margin (depth + 1)).toList ++ linesTail closer depth texts)) := by
  rw [linesTail, String.intercalate_cons_of_ne_nil h]
  simp [linesTail, String.toList_append]

/-- The form of a faithful value is a scalar, if it is neither a text nor a container. -/
theorem Faithful.scalar_or (h : Faithful room v) (hwrite : write .refuse depth v = .ok text) :
    Scalar text.toList v ∨ (∃ s, v = .str s) ∨ (∃ xs, v = .list xs) ∨ ∃ es, v = .map es := by
  cases h with
  | null => cases hwrite; exact .inl (scalar_word (by simp [words]))
  | bool b => cases hwrite; cases b <;> exact .inl (scalar_word (by simp [words]))
  | int short =>
    rw [write, integerText, short] at hwrite
    cases hwrite
    exact .inl (scalar_int short)
  | float back => cases hwrite; exact .inl (scalar_float back)
  | str s => exact .inr (.inl ⟨s, rfl⟩)
  | @list _ xs _ => exact .inr (.inr (.inl ⟨xs, rfl⟩))
  | @map _ es _ _ => exact .inr (.inr (.inr ⟨es, rfl⟩))

/-- **The form of a faithful value** begins as a value. -/
theorem Faithful.begins (h : Faithful room v) (hwrite : write .refuse depth v = .ok text) :
    Begins text.toList := by
  rcases h.scalar_or hwrite with hscalar | ⟨s, rfl⟩ | ⟨xs, rfl⟩ | ⟨es, rfl⟩
  · exact hscalar.begins
  · cases hwrite
    obtain ⟨r, hr, -⟩ := string_textLiteral s []
    rw [List.append_nil] at hr
    exact ⟨'\x22', r, hr, by decide, by decide, by decide⟩
  · rw [write] at hwrite
    obtain ⟨texts, -, htext⟩ := exists_of_bind hwrite
    cases htext
    obtain ⟨r, hr⟩ := exists_block (o := "[") (c := "]") rfl depth texts
    exact ⟨'[', r, hr, by decide, by decide, by decide⟩
  · rw [write] at hwrite
    obtain ⟨texts, -, htext⟩ := exists_of_bind hwrite
    cases htext
    obtain ⟨r, hr⟩ := exists_block (o := "\x7b") (c := "\x7d") rfl depth texts
    exact ⟨'{', r, hr, by decide, by decide, by decide⟩

/-- What begins as a value begins as one when more follows. -/
theorem Begins.append (h : Begins s) (rest : List Char) : Begins (s ++ rest) := by
  obtain ⟨c, r, rfl, hc⟩ := h
  exact ⟨c, r ++ rest, rfl, hc⟩

/-- Lines begin as the first of them. -/
theorem begins_linesTail {t : String} (h : Begins t.toList) (closer : Char) (depth : Nat)
    (texts : List String) : Begins (linesTail closer depth (t :: texts)) := by
  by_cases hne : texts = []
  · rw [hne, linesTail_singleton]
    exact h.append _
  · rw [linesTail_cons closer depth t hne]
    exact h.append _

/-- The items of a list begin as the first of them. -/
theorem begins_writeItems (hitems : ∀ x ∈ xs, Faithful room x) (hne : xs ≠ [])
    (hwrite : writeItems .refuse depth xs = .ok texts) (closer : Char) (margins : Nat) :
    texts ≠ [] ∧ Begins (linesTail closer margins texts) := by
  obtain ⟨x, xs, rfl⟩ := List.exists_cons_of_ne_nil hne
  rw [writeItems] at hwrite
  obtain ⟨t, ht, hwrite⟩ := exists_of_bind hwrite
  obtain ⟨ts, -, htexts⟩ := exists_of_bind hwrite
  cases htexts
  exact ⟨by simp, begins_linesTail ((hitems x List.mem_cons_self).begins ht) closer margins ts⟩

/-- A comma is no white space. -/
theorem skipGap_comma (s : List Char) : skipGap (',' :: s) = ',' :: s := rfl

/-- After a comma a value has ended. -/
theorem ended_comma (s : List Char) : Ended (',' :: s) := by
  rintro c ⟨⟩
  decide

/-- **The items of a list are read back**, if values are in fewer steps. -/
theorem elements_linesTail {bound : Nat} (hreads : ∀ fuel < bound, Reads fuel)
    (hitems : ∀ x ∈ xs, Faithful room x) (hne : xs ≠ [])
    (hwrite : writeItems .refuse (depth + 1) xs = .ok texts)
    (hfuel : 2 * (linesTail ']' depth texts).length ≤ fuel) (hbound : fuel ≤ bound) :
    elements fuel room (linesTail ']' depth texts ++ rest) = .ok (xs, rest) := by
  -- an item takes one step, and its line at least one character
  induction xs generalizing texts fuel with
  | nil => exact absurd rfl hne
  | cons x xs ih =>
    obtain ⟨hx, hxs⟩ := List.forall_mem_cons.mp hitems
    rw [writeItems] at hwrite
    obtain ⟨t, ht, hwrite⟩ := exists_of_bind hwrite
    obtain ⟨ts, hts, htexts⟩ := exists_of_bind hwrite
    cases htexts
    rcases fuel with _ | fuel
    · obtain ⟨c, r, hcons, -⟩ := begins_linesTail (hx.begins ht) ']' depth ts
      simp [hcons] at hfuel
    rw [elements]
    by_cases hlast : xs = []
    · -- the closing bracket follows the last item, after a margin
      subst hlast
      cases hts
      rw [linesTail_singleton] at hfuel ⊢
      simp only [List.length_append, String.length_toList, List.length_singleton] at hfuel
      have hvalue : value fuel room (t.toList ++ ((margin depth).toList ++ ']' :: rest)) =
          .ok (x, (margin depth).toList ++ ']' :: rest) :=
        hreads fuel (by omega) hx ht (by omega) (ended_margin _ _)
      simp only [List.append_assoc, List.singleton_append, hvalue, bind, Except.bind,
        skipGap_margin]
      rfl
    · -- a comma follows any other
      obtain ⟨hne, hbegins⟩ := begins_writeItems hxs hlast hts ']' depth
      rw [linesTail_cons ']' depth t hne] at hfuel ⊢
      simp only [List.length_append, String.length_toList, List.length_cons] at hfuel
      have hvalue : value fuel room
          (t.toList ++ ',' :: ((margin (depth + 1)).toList ++ (linesTail ']' depth ts ++ rest))) =
          .ok (x, ',' :: ((margin (depth + 1)).toList ++ (linesTail ']' depth ts ++ rest))) :=
        hreads fuel (by omega) hx ht (by omega) (ended_comma _)
      have hrest : elements fuel room (linesTail ']' depth ts ++ rest) = .ok (xs, rest) :=
        ih hxs hlast hts (by omega) (by omega)
      simp only [List.append_assoc, List.cons_append, hvalue, bind, Except.bind, skipGap_comma,
        skipGap_margin, hbegins.skipGap, hrest]
      rfl

/-- The line of an entry. -/
def entryLine (name t : String) : String := textLiteral name ++ ": " ++ t

/-- It begins with the quote of its key. -/
theorem begins_entryLine (name t : String) : Begins (entryLine name t).toList := by
  obtain ⟨r, hr, -⟩ := string_textLiteral name (": ".toList ++ t.toList)
  refine ⟨'\x22', r, ?_, by decide, by decide, by decide⟩
  rw [← hr, entryLine, String.toList_append, String.toList_append, List.append_assoc]

/-- The entries of a mapping begin as the first of them. -/
theorem begins_writeEntries (hne : es ≠ []) (hwrite : writeEntries .refuse depth es = .ok texts)
    (closer : Char) (margins : Nat) : texts ≠ [] ∧ Begins (linesTail closer margins texts) := by
  obtain ⟨⟨k, v⟩, es, rfl⟩ := List.exists_cons_of_ne_nil hne
  rw [writeEntries] at hwrite
  obtain ⟨name, -, hwrite⟩ := exists_of_bind hwrite
  obtain ⟨t, -, hwrite⟩ := exists_of_bind hwrite
  obtain ⟨ts, -, htexts⟩ := exists_of_bind hwrite
  cases htexts
  exact ⟨by simp, begins_linesTail (begins_entryLine name t) closer margins ts⟩

/-- The first line of a mapping is its key and its value. -/
theorem members_entryLine (name : String) {t : String} (hbegins : Begins t.toList)
    (hvalue : value fuel room (t.toList ++ rest) = .ok (v, rest)) :
    members (fuel + 1) room ((entryLine name t).toList ++ rest) = match skipGap rest with
      | '}' :: r => .ok ([(.str name, v)], r)
      | ',' :: r => do
        let (es, rest) ← members fuel room (skipGap r)
        return ((.str name, v) :: es, rest)
      | r => failAt .commaExpected r := by
  obtain ⟨r, hr, hstring⟩ := string_textLiteral name (':' :: ' ' :: (t.toList ++ rest))
  have hline : (entryLine name t).toList ++ rest = '\x22' :: r := by
    rw [← hr, entryLine, String.toList_append, String.toList_append, List.append_assoc,
      List.append_assoc]
    rfl
  have hcolon (s : List Char) : skipGap (':' :: s) = ':' :: s := rfl
  have hblank (s : List Char) : skipGap (' ' :: s) = skipGap s := rfl
  rw [hline, members]
  simp only [hstring, bind, Except.bind, hcolon, hblank, hbegins.skipGap, hvalue]
  generalize skipGap rest = after
  split
  · rfl
  · rfl
  · simp [*]

/-- **The entries of a mapping are read back**, if values are in fewer steps. -/
theorem members_linesTail {bound : Nat} (hreads : ∀ fuel < bound, Reads fuel)
    (hvalues : ∀ e ∈ es, Faithful room e.2) {names : List String}
    (hnames : es.map Prod.fst = names.map .str) (hne : es ≠ [])
    (hwrite : writeEntries .refuse (depth + 1) es = .ok texts)
    (hfuel : 2 * (linesTail '}' depth texts).length ≤ fuel) (hbound : fuel ≤ bound) :
    members fuel room (linesTail '}' depth texts ++ rest) = .ok (es, rest) := by
  -- an entry takes one step, and its line is longer than the text of its value
  induction es generalizing texts fuel names with
  | nil => exact absurd rfl hne
  | cons e es ih =>
    obtain ⟨k, v⟩ := e
    obtain ⟨hv, hes⟩ := List.forall_mem_cons.mp hvalues
    obtain ⟨name, names, rfl, rfl, hothers⟩ := List.map_eq_cons_iff.mp hnames.symm
    rw [writeEntries] at hwrite
    obtain ⟨key, hkey, hwrite⟩ := exists_of_bind hwrite
    cases hkey
    obtain ⟨t, ht, hwrite⟩ := exists_of_bind hwrite
    obtain ⟨ts, hts, htexts⟩ := exists_of_bind hwrite
    cases htexts
    have hlength : t.length + 2 ≤ (entryLine name t).length := by
      have hcolon : ": ".length = 2 := rfl
      rw [entryLine, String.length_append, String.length_append, hcolon]
      omega
    rw [← entryLine] at hfuel ⊢
    rcases fuel with _ | fuel
    · obtain ⟨c, r, hcons, -⟩ := begins_linesTail (begins_entryLine name t) '}' depth ts
      simp [hcons] at hfuel
    by_cases hlast : es = []
    · -- the closing bracket follows the last entry, after a margin
      subst hlast
      cases hts
      rw [linesTail_singleton] at hfuel ⊢
      simp only [List.length_append, String.length_toList, List.length_singleton] at hfuel
      have hvalue : value fuel room (t.toList ++ ((margin depth).toList ++ '}' :: rest)) =
          .ok (v, (margin depth).toList ++ '}' :: rest) :=
        hreads fuel (by omega) hv ht (by omega) (ended_margin _ _)
      have hline := members_entryLine name (hv.begins ht) hvalue
      rw [skipGap_margin] at hline
      rw [List.append_assoc, List.append_assoc, List.singleton_append, hline]
      rfl
    · -- a comma follows any other
      obtain ⟨hne, hbegins⟩ := begins_writeEntries hlast hts '}' depth
      rw [linesTail_cons '}' depth _ hne] at hfuel ⊢
      simp only [List.length_append, String.length_toList, List.length_cons] at hfuel
      have hvalue : value fuel room
          (t.toList ++ ',' :: ((margin (depth + 1)).toList ++ (linesTail '}' depth ts ++ rest))) =
          .ok (v, ',' :: ((margin (depth + 1)).toList ++ (linesTail '}' depth ts ++ rest))) :=
        hreads fuel (by omega) hv ht (by omega) (ended_comma _)
      have hrest : members fuel room (linesTail '}' depth ts ++ rest) = .ok (es, rest) :=
        ih hes hothers.symm hlast hts (by omega) (by omega)
      have hline := members_entryLine name (hv.begins ht) hvalue
      simp only [skipGap_comma, skipGap_margin, hbegins.skipGap, hrest] at hline
      rw [List.append_assoc, List.cons_append, List.append_assoc, hline]
      rfl

/-- What is put under a new text comes last. -/
theorem putKey_of_not_mem {key : String} {names : List String}
    (hnames : es.map Prod.fst = names.map .str) (hkey : key ∉ names) (v : Value) :
    Value.putKey (.str key) v es = es ++ [(.str key, v)] := by
  induction es generalizing names with
  | nil => rfl
  | cons e es ih =>
    obtain ⟨k, w⟩ := e
    obtain ⟨name, names, rfl, rfl, hothers⟩ := List.map_eq_cons_iff.mp hnames.symm
    rw [List.mem_cons, not_or] at hkey
    have hdifferent : (Value.str name).sameKey (.str key) = false := by
      simp [Value.sameKey, Ne.symm hkey.1]
    rw [Value.putKey, hdifferent, ih hothers.symm hkey.2]
    rfl

/-- **Entries under different texts** are a table already. -/
theorem entriesOf_eq_self (h : TextKeys es) : Value.entriesOf es = es := by
  obtain ⟨names, hnodup, hnames⟩ := h
  have key : ∀ (pairs table : List (Value × Value)) (names : List String), names.Nodup →
      (table ++ pairs).map Prod.fst = names.map .str →
      pairs.foldl (fun es e => Value.putKey e.1 e.2 es) table = table ++ pairs := by
    intro pairs
    induction pairs with
    | nil => exact fun table _ _ _ => (List.append_nil table).symm
    | cons pair pairs ih =>
      intro table names hnodup hnames
      obtain ⟨k, v⟩ := pair
      rw [List.map_append] at hnames
      obtain ⟨before, after, rfl, hbefore, hafter⟩ := List.append_eq_map_iff.mp hnames
      obtain ⟨name, after, rfl, rfl, hothers⟩ := List.map_eq_cons_iff.mp hafter
      have hnew : name ∉ before := fun hmem =>
        (List.nodup_append.mp hnodup).2.2 name hmem name List.mem_cons_self rfl
      rw [List.foldl_cons]
      dsimp only
      rw [putKey_of_not_mem hbefore.symm hnew v,
        ih (table ++ [(Value.str name, v)]) (before ++ name :: after) hnodup]
      · rw [List.append_assoc, List.singleton_append]
      · rw [List.append_assoc, List.singleton_append, List.map_append, List.map_append, hbefore,
          hafter]
  exact key es [] names hnodup hnames

/-- A text is read back. -/
theorem value_text (room : Nat) (s : String) (rest : List Char) :
    value (fuel + 1) room ((textLiteral s).toList ++ rest) = .ok (.str s, rest) := by
  obtain ⟨r, hr, hstring⟩ := string_textLiteral s rest
  rw [hr, value]
  simp only [hstring, bind, Except.bind]
  rfl

/-- A list is read back, if its items are in fewer steps. -/
theorem value_list (hreads : ∀ n < fuel + 1, Reads n) (hitems : ∀ x ∈ xs, Faithful room x)
    (hwrite : write .refuse depth (.list xs) = .ok text) (hfuel : 2 * text.length ≤ fuel + 1) :
    value (fuel + 1) (room + 1) (text.toList ++ rest) = .ok (.list xs, rest) := by
  rw [write] at hwrite
  obtain ⟨texts, htexts, htext⟩ := exists_of_bind hwrite
  cases htext
  by_cases hempty : xs = []
  · subst hempty
    cases htexts
    rw [block, String.toList_append]
    rfl
  obtain ⟨hne, hbegins⟩ := begins_writeItems hitems hempty htexts ']' depth
  have hblock : (block "[" "]" depth texts).toList =
      '[' :: ((margin (depth + 1)).toList ++ linesTail ']' depth texts) :=
    toList_block rfl rfl depth hne
  rw [← String.length_toList, hblock, List.length_cons, List.length_append] at hfuel
  have hread : elements fuel room (linesTail ']' depth texts ++ rest) = .ok (xs, rest) :=
    elements_linesTail hreads hitems hempty htexts (by omega) (by omega)
  rw [hblock, List.cons_append, List.append_assoc, value]
  simp only [enter, bind, Except.bind, skipGap_margin, hbegins.skipGap]
  obtain ⟨c, r, hcons, -, hc, -⟩ := hbegins
  rw [hcons] at hread ⊢
  split
  · rename_i heq
    obtain rfl := List.head_eq_of_cons_eq heq
    exact absurd (by decide) hc
  · rw [hread]
    rfl

/-- A mapping is read back, if its values are in fewer steps. -/
theorem value_map (hreads : ∀ n < fuel + 1, Reads n) (keys : TextKeys es)
    (hvalues : ∀ e ∈ es, Faithful room e.2) (hwrite : write .refuse depth (.map es) = .ok text)
    (hfuel : 2 * text.length ≤ fuel + 1) :
    value (fuel + 1) (room + 1) (text.toList ++ rest) = .ok (.map es, rest) := by
  rw [write] at hwrite
  obtain ⟨texts, htexts, htext⟩ := exists_of_bind hwrite
  cases htext
  by_cases hempty : es = []
  · subst hempty
    cases htexts
    rw [block, String.toList_append]
    rfl
  obtain ⟨hne, hbegins⟩ := begins_writeEntries hempty htexts '}' depth
  have hblock : (block "\x7b" "\x7d" depth texts).toList =
      '{' :: ((margin (depth + 1)).toList ++ linesTail '}' depth texts) :=
    toList_block rfl rfl depth hne
  rw [← String.length_toList, hblock, List.length_cons, List.length_append] at hfuel
  have hread : members fuel room (linesTail '}' depth texts ++ rest) = .ok (es, rest) :=
    members_linesTail hreads hvalues keys.choose_spec.2 hempty htexts (by omega) (by omega)
  rw [hblock, List.cons_append, List.append_assoc, value]
  simp only [enter, bind, Except.bind, skipGap_margin, hbegins.skipGap]
  obtain ⟨c, r, hcons, -, hc, -⟩ := hbegins
  rw [hcons] at hread ⊢
  split
  · rename_i heq
    obtain rfl := List.head_eq_of_cons_eq heq
    exact absurd (by decide) hc
  · rw [hread]
    simp only [entriesOf_eq_self keys]
    rfl

/-- **Values are read back** in as many steps as are twice their length. -/
theorem reads_all (fuel : Nat) : Reads fuel := by
  -- what is in a container is read in fewer steps than the container
  induction fuel using Nat.strongRecOn with
  | ind fuel ih =>
  intro room depth v text rest hv hwrite hfuel hrest
  rcases fuel with _ | fuel
  · obtain ⟨c, r, hcons, -⟩ := hv.begins hwrite
    rw [← String.length_toList, hcons] at hfuel
    simp at hfuel
  rcases hv.scalar_or hwrite with hscalar | ⟨s, rfl⟩ | ⟨xs, rfl⟩ | ⟨es, rfl⟩
  · exact value_append hrest hscalar.plain hscalar.read
  · cases hwrite
    exact value_text room s rest
  · cases hv with
    | list items => exact value_list ih items hwrite hfuel
  · cases hv with
    | map keys values => exact value_map ih keys values hwrite hfuel

/-- **A faithful document is read back** from the text that it is written as, with a line feed. -/
theorem Faithful.read_document (h : Faithful nestingLimit v)
    (hwrite : document .refuse v = .ok text) : read (text ++ "\n") = .ok v := by
  have hbegins := h.begins hwrite
  have hvalue : value (2 * (text ++ "\n").toList.length + 2) nestingLimit (text.toList ++ ['\n']) =
      .ok (v, ['\n']) := by
    refine reads_all _ h hwrite ?_ fun c hc => ?_
    · rw [String.toList_append, List.length_append, String.length_toList]
      omega
    · cases hc
      decide
  have htext : (text ++ "\n").toList = text.toList ++ ['\n'] := by
    rw [String.toList_append]
    rfl
  have hgap := hbegins.skipGap ['\n']
  rw [htext] at hvalue
  unfold read
  rw [htext]
  obtain ⟨c, r, hcons, -, -, hmark⟩ := hbegins
  rw [hcons, List.cons_append] at hvalue hgap ⊢
  simp only [hmark, if_false, hgap, hvalue]
  rfl

/-! ### Changes -/

/-- What is put under a text that is there stays in its place. -/
theorem map_fst_putKey_of_mem {key : String} {names : List String}
    (hnames : es.map Prod.fst = names.map .str) (hkey : key ∈ names) (v : Value) :
    (Value.putKey (.str key) v es).map Prod.fst = es.map Prod.fst := by
  induction es generalizing names with
  | nil =>
    obtain rfl := List.map_eq_nil_iff.mp hnames.symm
    cases hkey
  | cons e es ih =>
    obtain ⟨k, w⟩ := e
    obtain ⟨name, names, rfl, rfl, hothers⟩ := List.map_eq_cons_iff.mp hnames.symm
    rw [Value.putKey]
    split
    · rfl
    · rename_i hdifferent
      have hmem : key ∈ names := by
        refine (List.mem_cons.mp hkey).resolve_left fun heq => ?_
        simp [Value.sameKey, heq] at hdifferent
      rw [List.map_cons, List.map_cons, ih hothers.symm hmem]

/-- Texts stay different when something is put under one. -/
theorem TextKeys.putKey (h : TextKeys es) (key : String) (v : Value) :
    TextKeys (Value.putKey (.str key) v es) := by
  obtain ⟨names, hnodup, hnames⟩ := h
  by_cases hkey : key ∈ names
  · exact ⟨names, hnodup, (map_fst_putKey_of_mem hnames hkey v).trans hnames⟩
  · refine ⟨names ++ [key], List.nodup_append.mpr ⟨hnodup, by simp, fun a ha b hb heq => ?_⟩, ?_⟩
    · rw [List.mem_singleton.mp hb] at heq
      exact hkey (heq ▸ ha)
    · rw [putKey_of_not_mem hnames hkey v, List.map_append, List.map_append, hnames]
      rfl

/-- Each value is one that was there or the one that is put. -/
theorem snd_of_mem_putKey {k : Value} {e : Value × Value} (h : e ∈ Value.putKey k v es) :
    e.2 = v ∨ ∃ e' ∈ es, e'.2 = e.2 := by
  induction es with
  | nil =>
    rw [List.mem_singleton.mp h]
    exact .inl rfl
  | cons first es ih =>
    rw [Value.putKey] at h
    split at h
    · rcases List.mem_cons.mp h with rfl | h
      · exact .inl rfl
      · exact .inr ⟨e, List.mem_cons_of_mem _ h, rfl⟩
    · rcases List.mem_cons.mp h with rfl | h
      · exact .inr ⟨_, List.mem_cons_self, rfl⟩
      · exact (ih h).imp_right fun ⟨e', he', heq⟩ => ⟨e', List.mem_cons_of_mem _ he', heq⟩

/-- **A mapping stays faithful** when a faithful value is put under a text. -/
theorem Faithful.putKey (h : Faithful (room + 1) (.map es)) (hv : Faithful room v) (key : String) :
    Faithful (room + 1) (.map (Value.putKey (.str key) v es)) := by
  cases h with
  | map keys values =>
    refine .map (keys.putKey key v) fun e he => ?_
    rcases snd_of_mem_putKey he with heq | ⟨e', he', heq⟩
    · rw [heq]
      exact hv
    · rw [← heq]
      exact values e' he'

/-- A mapping without entries. -/
theorem faithful_nil : Faithful (room + 1) (.map []) :=
  .map ⟨[], List.nodup_nil, rfl⟩ fun _ he => by cases he

end ApiNodes.Json
