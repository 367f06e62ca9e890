import ApiNodes.Proofs.Typescript.Reading

namespace ApiNodes.Typescript

/-!
# Listings of literals

The items of an array and the members of a union are written as literals with a separator between
each two.  `Lists` says which texts list which items, whatever stands in the literals, ends of lines
as well: a backslash stands for the character behind it, and only a bare quote ends a literal.

* `readQuoted?_eq_some_iff`, `readListing?_eq_some_iff` — the readers read what is written in this way,
  and nothing else;
* `readLiteral?_eq_some_iff`, `readQuoted?_of_readLiteral?` — the reader of a literal that stops at the
  end of a line reads the literals without a bare one, as the same texts;
* `lists_quotedList`, `lists_unionType` — both texts that are generated for a list list its items;
* `listings_read` — a list is read back from either of them, so that no two lists have the same text.
-/

variable {separator nothing text v : String} {body s t rest : List Char} {xs : List String}

/-! ### Literals -/

/-- What stands between the quotes of a literal, and what it denotes. -/
inductive Denotes : List Char → List Char → Prop
  | nil : Denotes [] []
  | escaped (c : Char) {body s : List Char} (h : Denotes body s) :
    Denotes ('\\' :: c :: body) (c :: s)
  | plain {c : Char} {body s : List Char} (hescape : c ≠ '\\') (hquote : c ≠ '\x27')
    (h : Denotes body s) : Denotes (c :: body) (c :: s)

/-- A text is a literal of another one. -/
def LiteralOf (t : List Char) (v : String) : Prop :=
  ∃ body, t = '\x27' :: (body ++ ['\x27']) ∧ Denotes body v.toList

/-- Read a literal behind its first quote, after a backslash or not: what it denotes, and what follows
    it. -/
def readBody? (escaped : Bool) : List Char → Option (List Char × List Char)
  | [] => none
  | c :: r =>
    if escaped then (readBody? false r).map fun found => (c :: found.1, found.2)
    else if c = '\x27' then some ([], r)
    else if c = '\\' then readBody? true r
    else (readBody? false r).map fun found => (c :: found.1, found.2)

/-- Read a literal, through all of its lines. -/
def readQuoted? : List Char → Option (String × List Char)
  | '\x27' :: r => (readBody? false r).map fun found => (.ofList found.1, found.2)
  | _ => none

/-- An escaped text denotes the text. -/
theorem denotes_escapeChars (s : List Char) : Denotes (escapeChars s) s := by
  induction s with
  | nil => exact .nil
  | cons c s ih =>
    rw [escapeChars_cons]
    split
    · exact .escaped c ih
    · rename_i hspecial
      obtain ⟨hescape, hquote⟩ := ne_of_not_isSpecial (by simpa using hspecial)
      refine .plain hescape ?_ ih
      rintro rfl
      exact absurd hquote (by decide)

/-- A literal has its quotes. -/
theorem LiteralOf.ne_nil (h : LiteralOf t v) : t ≠ [] := by
  obtain ⟨body, rfl, -⟩ := h
  exact List.cons_ne_nil _ _

/-- A literal is one of what it was written from. -/
theorem literalOf_literal (v : String) : LiteralOf (literal v).toList v :=
  ⟨escapeChars v.toList, toList_literal v, denotes_escapeChars v.toList⟩

/-- What is read stands in the text, up to the quote that ends it. -/
theorem exists_of_readBody? {escaped : Bool} (h : readBody? escaped t = some (s, rest)) :
    ∃ body, t = body ++ '\x27' :: rest ∧
      Denotes (if escaped then '\\' :: body else body) s := by
  induction t generalizing escaped s with
  | nil => cases h
  | cons c r ih =>
    cases escaped with
    | true =>
      -- behind a backslash any character stands for itself
      obtain ⟨⟨found, after⟩, hfound, heq⟩ := Option.map_eq_some_iff.mp h
      cases heq
      obtain ⟨body, rfl, hbody⟩ := ih hfound
      exact ⟨c :: body, rfl, .escaped c hbody⟩
    | false =>
      -- the character ends the literal, begins an escape, or stands for itself
      rw [readBody?, if_neg (by decide)] at h
      by_cases hquote : c = '\x27'
      · subst hquote
        cases h
        exact ⟨[], rfl, .nil⟩
      · rw [if_neg hquote] at h
        by_cases hescape : c = '\\'
        · subst hescape
          obtain ⟨body, rfl, hbody⟩ := ih h
          exact ⟨'\\' :: body, rfl, hbody⟩
        · rw [if_neg hescape] at h
          obtain ⟨⟨found, after⟩, hfound, heq⟩ := Option.map_eq_some_iff.mp h
          cases heq
          obtain ⟨body, rfl, hbody⟩ := ih hfound
          exact ⟨c :: body, rfl, .plain hescape hquote hbody⟩

/-- What stands between two quotes is read as what it denotes. -/
theorem readBody?_append (h : Denotes body s) (rest : List Char) :
    readBody? false (body ++ '\x27' :: rest) = some (s, rest) := by
  induction h with
  | nil => rfl
  | escaped c _ ih =>
    show (readBody? false (_ ++ '\x27' :: rest)).map _ = _
    rw [ih, Option.map_some]
  | plain hescape hquote _ ih =>
    rw [List.cons_append, readBody?, if_neg (by decide), if_neg hquote, if_neg hescape, ih,
      Option.map_some]

/-- **A literal is read at the head of a text**, as what it denotes. -/
theorem readQuoted?_eq_some_iff :
    readQuoted? s = some (v, rest) ↔ ∃ t, s = t ++ rest ∧ LiteralOf t v := by
  constructor
  · intro h
    unfold readQuoted? at h
    split at h
    · rename_i r
      obtain ⟨⟨found, after⟩, hfound, heq⟩ := Option.map_eq_some_iff.mp h
      cases heq
      obtain ⟨body, rfl, hbody⟩ := exists_of_readBody? hfound
      exact ⟨'\x27' :: (body ++ ['\x27']), by simp, body, rfl, by rwa [String.toList_ofList]⟩
    · cases h
  · rintro ⟨_, rfl, body, rfl, hbody⟩
    rw [List.cons_append, List.append_assoc, List.singleton_append, readQuoted?,
      readBody?_append hbody, Option.map_some, String.ofList_toList]

/-! ### Literals of one line -/

/-- Where the scan finds the end of a literal, a body stands before the quote. -/
theorem exists_of_literalLength? {escaped : Bool} {n : Nat}
    (h : literalLength? '\x27' escaped t = some n) :
    ∃ body rest, t = body ++ '\x27' :: rest ∧ n = body.length + 1 ∧
      LiteralBody '\x27' (if escaped then '\\' :: body else body) := by
  induction t generalizing escaped n with
  | nil => cases h
  | cons c r ih =>
    -- one more character before the end
    have hcons (after : Bool) {n : Nat}
        (hn : (literalLength? '\x27' after r).map (· + 1) = some n) :
        ∃ body rest, c :: r = c :: body ++ '\x27' :: rest ∧ n = (c :: body).length + 1 ∧
          LiteralBody '\x27' (if after then '\\' :: body else body) := by
      obtain ⟨m, hm, rfl⟩ := Option.map_eq_some_iff.mp hn
      obtain ⟨body, rest, rfl, rfl, hbody⟩ := ih hm
      exact ⟨body, rest, rfl, rfl, hbody⟩
    cases escaped with
    | true =>
      obtain ⟨body, rest, heq, hn, hbody⟩ := hcons false h
      exact ⟨c :: body, rest, heq, hn, .escaped c hbody⟩
    | false =>
      by_cases hescape : c = '\\'
      · subst hescape
        obtain ⟨body, rest, heq, hn, hbody⟩ := hcons true h
        exact ⟨'\\' :: body, rest, heq, hn, hbody⟩
      · by_cases hquote : c = '\x27'
        · subst hquote
          rw [literalLength?_quote (by decide), Option.some.injEq] at h
          exact ⟨[], r, rfl, h.symm, .nil⟩
        · by_cases hline : c = '\n'
          · subst hline
            rw [literalLength?_line (by decide) (by decide)] at h
            cases h
          · have hinside : c = '\n' → '\x27' = '\x60' := fun hc => absurd hc hline
            rw [literalLength?_plain hescape hquote hinside] at h
            obtain ⟨body, rest, heq, hn, hbody⟩ := hcons false h
            exact ⟨c :: body, rest, heq, hn, .plain hescape hquote hinside hbody⟩

/-- What a body denotes is the body without its escapes. -/
theorem Denotes.unescapeChars_eq (h : Denotes body s) : unescapeChars body = s := by
  induction h with
  | nil => rfl
  | escaped c _ ih => rw [unescapeChars, ih]
  | plain hescape _ _ ih => rw [unescapeChars_cons hescape, ih]

/-- The body of a literal denotes a text. -/
theorem denotes_unescapeChars (h : LiteralBody '\x27' body) :
    Denotes body (unescapeChars body) := by
  induction h with
  | nil => exact .nil
  | escaped c _ ih => exact .escaped c ih
  | plain hescape hquote _ _ ih =>
    rw [unescapeChars_cons hescape]
    exact .plain hescape hquote ih

/-- **A literal of one line** is read as what its body denotes. -/
theorem readLiteral?_eq_some_iff :
    readLiteral? s = some (v, rest) ↔
      ∃ body, s = '\x27' :: (body ++ '\x27' :: rest) ∧ LiteralBody '\x27' body ∧
        Denotes body v.toList := by
  constructor
  · intro h
    unfold readLiteral? at h
    split at h
    · rename_i r
      obtain ⟨n, hn, heq⟩ := Option.map_eq_some_iff.mp h
      obtain ⟨body, after, rfl, rfl, hbody⟩ := exists_of_literalLength? hn
      have hafter : (body ++ '\x27' :: after).drop (body.length + 1) = after := by simp
      rw [Nat.add_sub_cancel, List.take_left, hafter] at heq
      cases heq
      refine ⟨body, rfl, hbody, ?_⟩
      rw [String.toList_ofList]
      exact denotes_unescapeChars hbody
    · cases h
  · rintro ⟨body, rfl, hbody, hdenotes⟩
    rw [readLiteral?, literalLength?_append hbody, literalLength?_quote (by decide)]
    simp [hdenotes.unescapeChars_eq, Nat.add_comm 1]

/-- The reader through all lines reads it as well, and as the same text. -/
theorem readQuoted?_of_readLiteral? (h : readLiteral? s = some (v, rest)) :
    readQuoted? s = some (v, rest) := by
  obtain ⟨body, rfl, -, hdenotes⟩ := readLiteral?_eq_some_iff.mp h
  exact readQuoted?_eq_some_iff.mpr ⟨'\x27' :: (body ++ ['\x27']), by simp, body, rfl, hdenotes⟩

/-! ### Listings -/

/-- A text lists items: it has a literal for each of them, with a separator between each two, or is the
    text for no items. -/
def Lists (separator nothing text : String) (xs : List String) : Prop :=
  xs = [] ∧ text = nothing ∨
    ∃ texts, texts ≠ [] ∧ List.Forall₂ LiteralOf texts xs ∧
      text.toList = Text.join separator.toList texts

/-- Read a literal behind a separator. -/
def readFurther? (separator : String) (s : List Char) : Option (String × List Char) :=
  (Text.after? separator.toList s).bind readQuoted?

/-- Read a listing, of which all has to be read. -/
def readListing? (separator nothing text : String) : Option (List String) :=
  if text = nothing then some []
  else do
    let (first, s) ← readQuoted? text.toList
    let (others, s) := readMany (readFurther? separator) s
    if s = [] then some (first :: others) else none

/-- A literal is read behind a separator. -/
theorem readFurther?_eq_some_iff :
    readFurther? separator s = some (v, rest) ↔
      ∃ t, s = separator.toList ++ t ++ rest ∧ LiteralOf t v := by
  rw [readFurther?, Option.bind_eq_some_iff]
  constructor
  · rintro ⟨r, hr, hread⟩
    obtain ⟨t, rfl, ht⟩ := readQuoted?_eq_some_iff.mp hread
    exact ⟨t, by rw [Text.after?_eq_some_iff.mp hr, List.append_assoc], ht⟩
  · rintro ⟨t, rfl, ht⟩
    refine ⟨t ++ rest, Text.after?_eq_some_iff.mpr (List.append_assoc ..), ?_⟩
    exact readQuoted?_eq_some_iff.mpr ⟨t, rfl, ht⟩

/-- There is no literal behind the end. -/
theorem readFurther?_nil (separator : String) : readFurther? separator [] = none := by
  rw [Option.eq_none_iff_forall_ne_some]
  rintro ⟨v, rest⟩ h
  obtain ⟨t, ht, hliteral⟩ := readFurther?_eq_some_iff.mp h
  rw [eq_comm, List.append_eq_nil_iff, List.append_eq_nil_iff] at ht
  exact hliteral.ne_nil ht.1.2

/-- What is read is listed in the text. -/
theorem lists_of_readListing? (h : readListing? separator nothing text = some xs) :
    Lists separator nothing text xs := by
  unfold readListing? at h
  split at h
  · cases h
    exact .inl ⟨rfl, by assumption⟩
  · obtain ⟨⟨first, s⟩, hfirst, h⟩ := Option.bind_eq_some_iff.mp h
    dsimp only at h
    split at h
    · rename_i hend
      cases h
      obtain ⟨t, htext, ht⟩ := readQuoted?_eq_some_iff.mp hfirst
      obtain ⟨texts, hs, hothers⟩ : ∃ texts,
          s = texts.flatMap (separator.toList ++ ·) ++ (readMany (readFurther? separator) s).2 ∧
            List.Forall₂ LiteralOf texts (readMany (readFurther? separator) s).1 :=
        exists_of_readMany (fun _ _ _ => readFurther?_eq_some_iff.mp) s
      refine .inr ⟨t :: texts, List.cons_ne_nil _ _, .cons ht hothers, ?_⟩
      rw [Text.join_cons, htext, hs, hend, List.append_nil]
    · cases h

/-- What is listed in a text is read, unless the text for no items looks like a literal. -/
theorem readListing?_of_lists (hnothing : nothing.toList.head? ≠ some '\x27')
    (h : Lists separator nothing text xs) : readListing? separator nothing text = some xs := by
  unfold readListing?
  rcases h with ⟨rfl, rfl⟩ | ⟨_, hne, hlisted, htext⟩
  · rw [if_pos rfl]
  · cases hlisted with
    | nil => exact absurd rfl hne
    | @cons t v texts xs ht hothers =>
      rw [Text.join_cons] at htext
      have hfirst := readQuoted?_eq_some_iff.mpr ⟨t, htext, ht⟩
      have hfurther : readMany (readFurther? separator)
          (texts.flatMap (separator.toList ++ ·) ++ []) = (xs, []) := by
        refine readMany_append (hothers.imp fun u w hu => ⟨?_, fun rest => ?_⟩)
          (readFurther?_nil separator)
        · exact List.append_ne_nil_of_right_ne_nil _ hu.ne_nil
        · exact readFurther?_eq_some_iff.mpr ⟨u, rfl, hu⟩
      rw [List.append_nil] at hfurther
      -- a literal begins with a quote, which the text for no items does not
      have hsome : text ≠ nothing := by
        rintro rfl
        obtain ⟨body, rfl, -⟩ := ht
        exact hnothing (by rw [htext]; rfl)
      rw [if_neg hsome, hfirst, Option.bind_eq_bind, Option.bind_some]
      dsimp only
      rw [hfurther]
      rfl

/-- **A listing is read as its items, and nothing else is read.** -/
theorem readListing?_eq_some_iff (hnothing : nothing.toList.head? ≠ some '\x27') :
    readListing? separator nothing text = some xs ↔ Lists separator nothing text xs :=
  ⟨lists_of_readListing?, readListing?_of_lists hnothing⟩

/-! ### Generated lists -/

/-- Literals with a separator between each two list what they were written from. -/
theorem lists_intercalate (separator nothing v : String) (xs : List String) :
    Lists separator nothing (String.intercalate separator ((v :: xs).map literal)) (v :: xs) := by
  refine .inr ⟨(v :: xs).map fun x => (literal x).toList, by simp, ?_, ?_⟩
  · rw [List.forall₂_map_left_iff, List.forall₂_same]
    exact fun x _ => literalOf_literal x
  · rw [toList_intercalate_literal, List.map_cons, Text.join_cons, List.flatMap_map]

/-- The body of an array lists its items, with a comma between each two. -/
theorem lists_quotedList (xs : List String) : Lists ", " "" (quotedList xs) xs := by
  cases xs with
  | nil => exact .inl ⟨rfl, rfl⟩
  | cons v xs => exact lists_intercalate ", " "" v xs

/-- A union lists its members, with a bar between each two, and no members as `never`. -/
theorem lists_unionType (xs : List String) : Lists " | " "never" (unionType xs) xs := by
  cases xs with
  | nil => exact .inl ⟨rfl, rfl⟩
  | cons v xs => exact lists_intercalate " | " "never" v xs

/-- **Lists are read back**, from the body of an array and from a union, whatever quotes, backslashes,
    separators and ends of lines their items hold.  So no two lists have the same text. -/
theorem listings_read :
    (∀ xs, readListing? ", " "" (quotedList xs) = some xs) ∧
    (∀ xs, readListing? " | " "never" (unionType xs) = some xs) ∧
    Function.Injective quotedList ∧ Function.Injective unionType := by
  have hlist (xs : List String) : readListing? ", " "" (quotedList xs) = some xs :=
    (readListing?_eq_some_iff (by decide)).mpr (lists_quotedList xs)
  have hunion (xs : List String) : readListing? " | " "never" (unionType xs) = some xs :=
    (readListing?_eq_some_iff (by decide)).mpr (lists_unionType xs)
  refine ⟨hlist, hunion, fun xs ys h => ?_, fun xs ys h => ?_⟩
  · rw [← Option.some.injEq, ← hlist xs, h, hlist]
  · rw [← Option.some.injEq, ← hunion xs, h, hunion]

end ApiNodes.Typescript
