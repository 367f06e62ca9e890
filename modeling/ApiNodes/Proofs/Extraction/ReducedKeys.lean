import ApiNodes.Proofs.Extraction.Verbs

namespace ApiNodes.Api

open Name (All isInner isLetter isSmall isWordChar wordChars)

/-!
# Reduced keys

Reducing a key to an identifier comes to rest after one pass.  Placeholders, other characters and
what stands before the first letter are dropped, and then underscores give way to capitals; no pass
brings back what one before it took away.

* `IsReduced` — a key on which there is nothing to reduce;
* `isReduced_sanitizeKey`, `sanitizeKey_eq_self_iff` — these are the keys that reducing makes, and
  those that it leaves as they are;
* `inferKey_spec` — the keys that are inferred from ordinary paths are reduced already, and tell the
  collections that are listed from all else;
* `key_inference` — both, and what follows for the operations of a document.
-/

variable {c d : Char} {s t : List Char} {key method name : String} {segments : List String}

/-! ### Underscores -/

/-- No small letter stands behind an underscore. -/
def Unjoined (s : List Char) : Prop := ∀ c, isSmall c = true → ¬['_', c] <:+: s

/-- A text begins with a character of a class. -/
def StartsIn (p : Char → Bool) (s : List Char) : Prop := ∃ c ∈ s.head?, p c = true

/-- What stands behind the first character is unjoined, and so are the first two. -/
theorem unjoined_cons_iff :
    Unjoined (c :: s) ↔ ¬(c = '_' ∧ StartsIn isSmall s) ∧ Unjoined s := by
  constructor
  · intro h
    refine ⟨?_, fun d hd hwithin => h d hd (List.infix_cons hwithin)⟩
    rintro ⟨rfl, d, hhead, hd⟩
    obtain ⟨t, rfl⟩ := List.head?_eq_some_iff.mp hhead
    exact h d hd ⟨[], t, rfl⟩
  · rintro ⟨hfirst, hrest⟩ d hd hwithin
    rcases List.infix_cons_iff.mp hwithin with hpre | hwithin
    · obtain ⟨t, ht⟩ := hpre
      cases ht
      exact hfirst ⟨rfl, d, rfl, hd⟩
    · exact hrest d hd hwithin

/-- The empty text is unjoined. -/
theorem unjoined_nil : Unjoined [] := by
  intro c _ hwithin
  simpa using hwithin.length_le

/-- A text without underscores is unjoined. -/
theorem unjoined_of_not_mem (h : '_' ∉ s) : Unjoined s :=
  fun _ _ hwithin => h (hwithin.subset List.mem_cons_self)

/-- A capital letter is neither a small one nor an underscore. -/
theorem of_toUpper (h : isSmall d = true) : isSmall d.toUpper = false ∧ d.toUpper ≠ '_' := by
  have hascii : d.toNat < 128 := Name.ascii_of_isLetter (by simp [isLetter, h])
  exact Text.ascii_induction
    (P := fun d => isSmall d = true → isSmall d.toUpper = false ∧ d.toUpper ≠ '_') (by decide)
    hascii h

/-- Joined, a text begins with a small letter only if it did so before. -/
theorem startsIn_of_joinUnderscores (h : StartsIn isSmall (joinUnderscores s)) :
    StartsIn isSmall s := by
  cases s using joinUnderscores.fun_cases with
  | case1 => exact h
  | case2 c => exact h
  | case3 c d r hcd =>
    -- the text begins with a capital now
    rw [joinUnderscores, if_pos hcd] at h
    obtain ⟨e, he, hsmall⟩ := h
    cases he
    rw [(of_toUpper hcd.2).1] at hsmall
    cases hsmall
  | case4 c d r hcd =>
    rw [joinUnderscores, if_neg hcd] at h
    exact h

/-- **Joined texts are unjoined.** -/
theorem unjoined_joinUnderscores (s : List Char) : Unjoined (joinUnderscores s) := by
  induction s using joinUnderscores.induct with
  | case1 => exact unjoined_nil
  | case2 c =>
    rw [joinUnderscores, unjoined_cons_iff]
    refine ⟨?_, unjoined_nil⟩
    rintro ⟨-, d, hd, -⟩
    cases hd
  | case3 c d r hcd ih =>
    -- a capital stands in the place of the underscore
    rw [joinUnderscores, if_pos hcd, unjoined_cons_iff]
    exact ⟨fun h => (of_toUpper hcd.2).2 h.1, ih⟩
  | case4 c d r hcd ih =>
    -- the character stays, and what follows it was joined
    rw [joinUnderscores, if_neg hcd, unjoined_cons_iff]
    refine ⟨?_, ih⟩
    rintro ⟨rfl, hstart⟩
    obtain ⟨e, he, hsmall⟩ := startsIn_of_joinUnderscores hstart
    cases he
    exact hcd ⟨rfl, hsmall⟩

/-- **An unjoined text has nothing to join.** -/
theorem joinUnderscores_eq_self (h : Unjoined s) : joinUnderscores s = s := by
  induction s using joinUnderscores.induct with
  | case1 => rfl
  | case2 c => rfl
  | case3 c d r hcd ih => exact absurd ⟨hcd.1, d, rfl, hcd.2⟩ (unjoined_cons_iff.mp h).1
  | case4 c d r hcd ih => rw [joinUnderscores, if_neg hcd, ih (unjoined_cons_iff.mp h).2]

/-! ### Reduced keys -/

/-- A reduced key: an ASCII letter, and then ASCII letters, digits and underscores, with no small
    letter behind an underscore. -/
structure IsReduced (s : List Char) : Prop where
  isKey : IsKey s
  unjoined : Unjoined s

/-- The characters of a key. -/
theorem IsKey.all (h : IsKey s) : All (isWordChar · = true) s := by
  obtain ⟨c, t, rfl, hc, ht⟩ := h
  intro d hd
  rcases List.mem_cons.mp hd with rfl | hd
  · simp [isWordChar, hc]
  · exact ht d hd

/-- **What reducing makes is reduced.** -/
theorem isReduced_sanitizeKey (key : String) : IsReduced (sanitizeKey key).toList := by
  refine ⟨isKey_sanitizeKey key, ?_⟩
  unfold sanitizeKey
  split
  · exact unjoined_of_not_mem (by decide)
  · rw [String.toList_ofList]
    exact unjoined_joinUnderscores _

/-- A text without braces has no placeholders to drop. -/
theorem dropHoles_eq_self (h : '{' ∉ s) : dropHoles s = s := by
  have hparts : parts s = s.map .plain := by
    have happend := parts_append (t := []) h
    have hnil : parts [] = [] := rfl
    rwa [hnil, List.append_nil, List.append_nil] at happend
  rw [dropHoles, hparts, List.flatMap_map]
  exact List.flatMap_singleton' s

/-- Nothing is left to reduce on a reduced key. -/
theorem sanitizeKey_eq_self (h : IsReduced key.toList) : sanitizeKey key = key := by
  have hall := h.isKey.all
  obtain ⟨c, t, hkey, hc, -⟩ := h.isKey
  have hbrace : '{' ∉ key.toList := fun hmem => absurd (hall '{' hmem) (by decide)
  have hwords : wordChars key.toList = key.toList := List.filter_eq_self.mpr hall
  have hfirst : key.toList.dropWhile (fun c => !isLetter c) = key.toList := by
    rw [hkey, List.dropWhile_cons_of_neg (by simp [hc])]
  have hchars : identifierChars key.toList = key.toList := by
    rw [identifierChars, dropHoles_eq_self hbrace, hwords, hfirst,
      joinUnderscores_eq_self h.unjoined]
  rw [sanitizeKey, hchars]
  split
  · rename_i hnil
    rw [hkey] at hnil
    cases hnil
  · exact String.ofList_toList

/-- **Reducing leaves those keys as they are that are reduced**, and no others. -/
theorem sanitizeKey_eq_self_iff : sanitizeKey key = key ↔ IsReduced key.toList := by
  refine ⟨fun h => ?_, sanitizeKey_eq_self⟩
  rw [← h]
  exact isReduced_sanitizeKey key

/-! ### Ordinary segments -/

/-- An ordinary segment: a name of ASCII letters, digits, underscores and hyphens, or anything that
    begins with a brace. -/
def OrdinarySegment (segment : String) : Prop :=
  PlainName segment.toList ∨ isHole segment = true

instance (segment : String) : Decidable (OrdinarySegment segment) :=
  decidable_of_iff ((segment.toList ≠ [] ∧ segment.toList.all isPlain = true) ∨
      isHole segment = true) <| or_congr_left
    ⟨fun ⟨hne, hplain⟩ => ⟨hne, List.all_eq_true.mp hplain⟩,
      fun h => ⟨h.nonempty, List.all_eq_true.mpr h.plain⟩⟩

/-- A method is a name, be its letters small ones or capitals. -/
def Spells (method name : String) : Prop := Text.lower method = Text.lower name

instance (method name : String) : Decidable (Spells method name) :=
  inferInstanceAs (Decidable (_ = _))

/-- Letters and digits stay so in lower case. -/
theorem all_lowerChars_inner (h : All (isInner · = true) s) :
    All (isInner · = true) (Text.lowerChars s) := by
  have hascii : Text.IsAscii s :=
    fun c hc => (Name.ascii_of_isWordChar (Name.not_isSeparator_of_isInner (h c hc)).1).2
  rw [Text.lowerChars_of_ascii hascii]
  intro d hd
  obtain ⟨c, hc, rfl⟩ := List.mem_map.mp hd
  exact Text.ascii_induction (P := fun c => isInner c = true → isInner c.toLower = true) (by decide)
    (hascii c hc) (h c hc)

/-- Letters and digits stay so behind a capital initial. -/
theorem all_capitalizeChars_inner (h : All (isInner · = true) s) :
    All (isInner · = true) (Text.capitalizeChars s) := by
  cases s with
  | nil => exact h
  | cons c s =>
    exact (Name.all_upperChar (.inl (h c List.mem_cons_self))).append
      (h.subset fun d hd => List.mem_cons_of_mem c hd)

/-- The words of a text of word characters are made of letters and digits. -/
theorem all_inner_of_mem_words (h : All (isWordChar · = true) s) (ht : t ∈ Name.words s) :
    All (isInner · = true) t := by
  intro c hc
  obtain ⟨hmem, hsep⟩ := Name.mem_words ht hc
  exact Name.isInner_of_not_isSeparator (h c hmem) hsep

/-- The Pascal case of a text of word characters is made of letters and digits. -/
theorem all_pascalChars_inner (h : All (isWordChar · = true) s) :
    All (isInner · = true) (Name.pascalChars s) := by
  refine all_capitalizeChars_inner ?_
  unfold Name.camelChars
  split
  · exact fun c hc => by cases hc
  · rename_i w ws hwords
    have hall {v} (hv : v ∈ w :: ws) : All (isInner · = true) v :=
      all_inner_of_mem_words h (hwords ▸ hv)
    have hw := hall List.mem_cons_self
    refine ((all_lowerChars_inner (hw.subset fun _ => List.mem_of_mem_take)).append
      (hw.subset fun _ => List.mem_of_mem_drop)).append fun c hc => ?_
    obtain ⟨v, hv, hc⟩ := List.mem_flatMap.mp hc
    exact all_capitalizeChars_inner (hall (List.mem_cons_of_mem w hv)) c hc

/-- Without its hyphens a plain name is made of word characters. -/
theorem all_underscored (h : PlainName s) : All (isWordChar · = true) (underscored s) := by
  intro c hc
  obtain ⟨d, hd, rfl⟩ := List.mem_map.mp hc
  have hplain := h.plain d hd
  simp only [isPlain, Bool.or_eq_true, beq_iff_eq] at hplain
  split_ifs with hhyphen
  · decide
  · exact hplain.resolve_right hhyphen

/-- **The suffix of a key** is made of letters and digits where the segments are ordinary. -/
theorem all_keySuffix (h : ∀ s ∈ segments, OrdinarySegment s) :
    All (isInner · = true) (keySuffix segments).toList := by
  intro c hc
  rw [keySuffix, String.toList_join, List.mem_flatMap] at hc
  obtain ⟨piece, hpiece, hc⟩ := hc
  obtain ⟨s, hs, rfl⟩ := List.mem_map.mp hpiece
  obtain ⟨hs, hname⟩ := List.mem_filter.mp hs
  rw [String.toList_ofList] at hc
  have hplain := (h s (List.mem_of_mem_drop hs)).resolve_right (by simpa using hname)
  exact all_pascalChars_inner (all_underscored hplain) c hc

/-! ### Inferred keys -/

/-- A verb and a suffix of letters and digits make a reduced key. -/
theorem isReduced_append (hverb : key ∈ keyVerbs) (ht : All (isInner · = true) t) :
    IsReduced (key.toList ++ t) := by
  obtain ⟨hne, hletters⟩ := letters_of_mem_keyVerbs hverb
  have hinner : All (isInner · = true) (key.toList ++ t) :=
    All.append (fun c hc => by simp [isInner, hletters c hc]) ht
  refine ⟨?_, unjoined_of_not_mem fun hmem => absurd (hinner '_' hmem) (by decide)⟩
  obtain ⟨c, v, hv⟩ := List.exists_cons_of_ne_nil hne
  rw [hv, List.cons_append] at hinner ⊢
  refine ⟨c, v ++ t, rfl, hletters c (hv ▸ List.mem_cons_self), fun d hd => ?_⟩
  exact (Name.not_isSeparator_of_isInner (hinner d (List.mem_cons_of_mem c hd))).1

/-- A verb with something behind it is not the verb for listing, and without it only if it is that
    verb. -/
theorem verb_append_eq_list_iff (hverb : key ∈ keyVerbs) :
    key ++ name = "list" ↔ key = "list" ∧ name = "" := by
  have hbegins : ∀ verb ∈ keyVerbs, verb.toList <+: "list".toList → verb = "list" := by decide
  constructor
  · intro h
    have hkey : key = "list" := by
      refine hbegins key hverb ⟨name.toList, ?_⟩
      rw [← String.toList_append, h]
    subst hkey
    have hlength := congrArg String.length h
    rw [String.length_append] at hlength
    exact ⟨rfl, String.length_eq_zero_iff.mp (by omega)⟩
  · rintro ⟨rfl, rfl⟩
    rfl

/-- **The key of an ordinary path** is a verb and a suffix of letters and digits.  It is that of
    listing on collections, for the method that gets them, and nowhere else. -/
theorem inferKey_spec (hne : segments ≠ []) (hsegments : ∀ s ∈ segments, OrdinarySegment s)
    (hmethod : ∃ m ∈ methods, Spells method m) :
    IsReduced (inferKey segments method).toList ∧
      (inferKey segments method = "list" ↔ Spells method "GET" ∧ segments.length = 1) := by
  have hlower : ∀ m ∈ methods, Text.lower m ∈ ["get", "post", "put", "delete", "patch"] := by
    decide +kernel
  have hget : Text.lower "GET" = "get" := by decide +kernel
  obtain ⟨m, hm, hspells⟩ := hmethod
  have hmem : Text.lower method ∈ ["get", "post", "put", "delete", "patch"] := by
    rw [hspells]
    exact hlower m hm
  -- the verbs that keys are made with, and which of them are the one for listing
  have hverbs : ∀ m ∈ ["get", "post", "put", "delete", "patch"],
      m ∈ keyVerbs ∧ m ≠ "list" ∧ (if m = "get" then "list" else m) ∈ keyVerbs ∧
        ((if m = "get" then "list" else m) = "list" ↔ m = "get") ∧
        standardKey m true ∈ keyVerbs ∧ standardKey m true ≠ "list" ∧
        ∀ b, suffixVerb m b ∈ keyVerbs := by
    decide
  obtain ⟨hself, hselfNe, hfirst, hfirstIff, hstandard, hstandardNe, hsuffixed⟩ := hverbs _ hmem
  have hreduced {verb : String} (hverb : verb ∈ keyVerbs) : IsReduced verb.toList := by
    have happend := isReduced_append hverb (t := []) fun c hc => by cases hc
    rwa [List.append_nil] at happend
  rw [Spells, hget]
  unfold inferKey
  dsimp only
  split
  · -- the collection itself
    refine ⟨hreduced hfirst, hfirstIff.trans ?_⟩
    simp
  · rename_i hother
    have hlength : segments.length ≠ 1 := fun h => by
      obtain ⟨s, rfl⟩ := List.length_eq_one_iff.mp h
      exact hother s rfl
    have hlong : 1 < segments.length := by
      have hpos := List.length_pos_of_ne_nil hne
      omega
    split_ifs with hhole hempty
    · -- a member of it
      exact ⟨hreduced hself, iff_of_false hselfNe fun h => hlength h.2⟩
    · -- nothing but placeholders below a member
      rw [decide_eq_true hlong]
      exact ⟨hreduced hstandard, iff_of_false hstandardNe fun h => hlength h.2⟩
    · -- further segments
      rw [String.toList_append]
      refine ⟨isReduced_append (hsuffixed _) (all_keySuffix hsegments), ?_⟩
      rw [verb_append_eq_list_iff (hsuffixed _)]
      exact iff_of_false (fun h => hempty h.2) fun h => hlength h.2

/-- An extracted operation on an ordinary path is a list operation if it gets a collection. -/
theorem isList_iff {config : Config} {document : Value} {resources : List Resource} {r : Resource}
    {o : Operation} (h : extract config document = .ok resources) (hr : r ∈ resources)
    (ho : o ∈ r.operations) (hsegments : ∀ s ∈ Api.segments o.path, OrdinarySegment s) :
    o.isList = true ↔ o.method = "GET" ∧ (Api.segments o.path).length = 1 := by
  obtain ⟨c, -, e, he, -, hread, -⟩ := origin_of_mem_operations h hr ho
  obtain ⟨-, hmethod, hpath, hlist, -⟩ := read_spec hread
  obtain ⟨path, first, -, hepath, -, hknown, hfirst, -⟩ := accepted_spec he
  rw [hpath] at hsegments ⊢
  have hne : Api.segments e.path ≠ [] := by
    intro hnil
    have hhead := firstSegment_iff.mp hfirst
    rw [← hepath, hnil] at hhead
    cases hhead
  obtain ⟨hreduced, hiff⟩ := inferKey_spec hne hsegments ⟨e.method, hknown, rfl⟩
  -- among the methods of the service the one that gets is told by its letters in lower case
  have hget : ∀ m ∈ methods, Spells m "GET" ↔ m = "GET" := by
    decide +kernel
  rw [hlist, beq_iff_eq, key_of_accepted he, sanitizeKey_eq_self hreduced, hiff, hmethod,
    hget e.method hknown]

/-- **The inference of keys.**  On an ordinary path, with a method of the service in whatever case,
    it makes a key that reducing leaves as it is, and that is the key of listing exactly where a
    collection is asked for; so the operations that list are those that get a collection.  Whatever
    text is reduced becomes a reduced key, and reducing it again changes nothing. -/
theorem key_inference :
    (∀ (segments : List String) (method : String), segments ≠ [] →
      (∀ s ∈ segments, OrdinarySegment s) → (∃ m ∈ methods, Spells method m) →
        sanitizeKey (inferKey segments method) = inferKey segments method ∧
          (inferKey segments method = "list" ↔ Spells method "GET" ∧ segments.length = 1)) ∧
    (∀ (config : Config) (document : Value) (resources : List Resource),
      extract config document = .ok resources → ∀ r ∈ resources, ∀ o ∈ r.operations,
        (∀ s ∈ Api.segments o.path, OrdinarySegment s) →
          (o.isList = true ↔ o.method = "GET" ∧ (Api.segments o.path).length = 1)) ∧
    ∀ key : String,
      IsReduced (sanitizeKey key).toList ∧ sanitizeKey (sanitizeKey key) = sanitizeKey key := by
  refine ⟨fun segments method hne hsegments hmethod => ?_, fun config document resources h => ?_,
    fun key => ?_⟩
  · obtain ⟨hreduced, hlist⟩ := inferKey_spec hne hsegments hmethod
    exact ⟨sanitizeKey_eq_self hreduced, hlist⟩
  · exact fun r hr o ho hsegments => isList_iff h hr ho hsegments
  · exact ⟨isReduced_sanitizeKey key, sanitizeKey_eq_self (isReduced_sanitizeKey key)⟩

/-- Customers, with one of them and with what is noted of it. -/
def customersDocument : Value :=
  .object [("paths", .object
    [("/api/v1/customers", .object [("get", .object []), ("post", .object [])]),
     ("/api/v1/customers/\x7bid\x7d", .object [("get", .object [])]),
     ("/api/v1/customers/\x7bid\x7d/__-/log_book", .object [("GET", .object [])])])]

/-- The segments of the last path of `customersDocument`. -/
def logBookSegments : List String := ["customers", "\x7bid\x7d", "__-", "log_book"]

/-- Keys are inferred for `customersDocument`, and a key with a placeholder, with underscores and
    with what stands before the first letter is reduced. -/
theorem key_inference_customersDocument :
    (inferKey logBookSegments "gEt" = "listLogBook" ∧
      sanitizeKey (inferKey logBookSegments "gEt") = inferKey logBookSegments "gEt" ∧
      (inferKey logBookSegments "gEt" = "list" ↔
        Spells "gEt" "GET" ∧ logBookSegments.length = 1)) ∧
    (∃ resources, extract {} customersDocument = .ok resources ∧ ∃ r ∈ resources,
      r.operations.map (fun o => (o.path, o.isList)) =
        [("/api/v1/customers", true), ("/api/v1/customers", false),
          ("/api/v1/customers/\x7bid\x7d", false),
          ("/api/v1/customers/\x7bid\x7d/__-/log_book", false)] ∧
      ∀ o ∈ r.operations,
        (o.isList = true ↔ o.method = "GET" ∧ (Api.segments o.path).length = 1)) ∧
    sanitizeKey "\x7bx\x7d_1__get-x__2_b" = "getx__2B" ∧ sanitizeKey "getx__2B" = "getx__2B" := by
  have hlists : ((extract {} customersDocument).toOption.map fun resources =>
      resources.map fun r => r.operations.map fun o => (o.path, o.isList)) =
        some [[("/api/v1/customers", true), ("/api/v1/customers", false),
          ("/api/v1/customers/\x7bid\x7d", false),
          ("/api/v1/customers/\x7bid\x7d/__-/log_book", false)]] := by
    decide +kernel
  have hsanitized : sanitizeKey "\x7bx\x7d_1__get-x__2_b" = "getx__2B" := by decide +kernel
  obtain ⟨resources, h, hresources⟩ := exists_of_toOption hlists
  obtain ⟨r, hr, hoperations⟩ := List.mem_map.mp (hresources ▸ List.mem_singleton_self _)
  refine ⟨⟨by decide +kernel, ?_⟩, ⟨resources, h, r, hr, hoperations, fun o ho => ?_⟩, hsanitized,
    ?_⟩
  · exact key_inference.1 logBookSegments "gEt" (by decide) (by decide +kernel) (by decide +kernel)
  · -- none of the paths has a segment out of the ordinary
    have hordinary : ∀ path ∈ ["/api/v1/customers", "/api/v1/customers",
        "/api/v1/customers/\x7bid\x7d", "/api/v1/customers/\x7bid\x7d/__-/log_book"],
        ∀ s ∈ Api.segments path, OrdinarySegment s := by
      decide +kernel
    have hmem : o.path ∈ (r.operations.map fun o => (o.path, o.isList)).map Prod.fst := by
      rw [List.map_map]
      exact List.mem_map_of_mem ho
    rw [hoperations] at hmem
    exact key_inference.2.1 {} customersDocument resources h r hr o ho (hordinary o.path hmem)
  · have hfixed := (key_inference.2.2 "\x7bx\x7d_1__get-x__2_b").2
    rwa [hsanitized] at hfixed

end ApiNodes.Api
