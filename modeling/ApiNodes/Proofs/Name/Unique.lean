import ApiNodes.Name.Unique
import ApiNodes.Proofs.Name.Closed
import Mathlib.Data.Finset.Card
import Mathlib.Order.Bounds.Defs
import Mathlib.Order.Interval.Finset.Nat

namespace ApiNodes.Name

/-!
# Unique names: lemmas

* `leastFree_unique` — the name that is given is the base, or the base with the least number that
  makes it free: one number more is tried than there are names that could be taken;
* `searchEnds_iff`, `unique_search` — the search that tries one number after another comes to an end,
  at that number, and how far it goes;
* `unique_not_mem`, `unique_eq` — it is free, and it is the base or the base with a number;
* `nodup_uniqueAll`, `exists_base_of_mem_uniqueAll`, `leastFree_of_zip` — the same for names that are
  given in order;
* `mem_uniqueAll_of_mem` — a base that is free at the start is among the names.
-/

variable {P : Char → Prop} {base name : String} {taken : List String}

/-- Different numbers make different names. -/
theorem eq_of_numbered_eq {m n : Nat} (h : numbered base m = numbered base n) : m = n := by
  have hdigits : Nat.toDigits 10 m = Nat.toDigits 10 n := by
    have h := congrArg String.toList h
    simpa only [numbered, String.toList_append, List.append_cancel_left_eq,
      Nat.toString_eq_repr, Nat.toList_repr] using h
  rw [← Nat.ofDigitChars_ten_toDigits (n := m), hdigits, Nat.ofDigitChars_ten_toDigits]

/-- A number makes another name. -/
theorem numbered_ne (base : String) (n : Nat) : numbered base n ≠ base := by
  intro h
  have h := congrArg String.toList h
  rw [numbered, String.toList_append, List.append_right_eq_self, Nat.toString_eq_repr,
    Nat.toList_repr] at h
  exact Nat.toDigits_ne_nil h

/-- The name is the base, or the base with a number. -/
theorem unique_eq (base : String) (taken : List String) :
    unique base taken = base ∨ ∃ n, unique base taken = numbered base n := by
  unfold unique
  split
  · exact .inr ⟨_, rfl⟩
  · exact .inl rfl

/-- As long as all numbers from two on up to a number are taken, and the base as well, the number is
    at most one more than there are names taken. -/
theorem le_card_of_taken {n : Nat} (hbase : base ∈ taken)
    (h : ∀ m, 2 ≤ m → m < n → numbered base m ∈ taken) : n ≤ taken.toFinset.card + 1 := by
  -- different numbers make different names, and none of them is the base
  have hinjective : Function.Injective (numbered base) := fun _ _ => eq_of_numbered_eq
  have hfresh : base ∉ (Finset.Ico 2 n).image (numbered base) := by
    intro hmem
    obtain ⟨m, -, hm⟩ := Finset.mem_image.mp hmem
    exact numbered_ne base m hm
  have hsub : insert base ((Finset.Ico 2 n).image (numbered base)) ⊆ taken.toFinset := by
    intro x hx
    rw [List.mem_toFinset]
    rcases Finset.mem_insert.mp hx with rfl | hx
    · exact hbase
    · obtain ⟨m, hm, rfl⟩ := Finset.mem_image.mp hx
      rw [Finset.mem_Ico] at hm
      exact h m hm.1 hm.2
  have hcard := Finset.card_le_card hsub
  rw [Finset.card_insert_of_notMem hfresh, Finset.card_image_of_injective _ hinjective,
    Nat.card_Ico] at hcard
  omega

/-- One of the numbers that are tried is free: were all of them taken, there would be more names
    taken than there are. -/
theorem exists_free (h : base ∈ taken) : ∃ n < taken.length, numbered base (n + 2) ∉ taken := by
  by_contra hall
  have htaken : ∀ m, 2 ≤ m → m < taken.length + 2 → numbered base m ∈ taken := by
    intro m hm hlt
    by_contra hfree
    refine hall ⟨m - 2, by omega, ?_⟩
    rwa [Nat.sub_add_cancel hm]
  have hcard := le_card_of_taken h htaken
  have hlength := taken.toFinset_card_le
  omega

/-- A name is the base if that is free, and else the base with the least number from two on that
    makes it free. -/
inductive LeastFree (base : String) (taken : List String) : String → Prop
  | base : base ∉ taken → LeastFree base taken base
  | numbered {n : Nat} : base ∈ taken → 2 ≤ n → numbered base n ∉ taken →
    (∀ m, 2 ≤ m → m < n → numbered base m ∈ taken) → LeastFree base taken (numbered base n)

/-- **The name that is given** is the base, or the base with the least number. -/
theorem leastFree_unique (base : String) (taken : List String) :
    LeastFree base taken (unique base taken) := by
  unfold unique
  split
  · rename_i hbase
    obtain ⟨k, hk, hfree⟩ := exists_free hbase
    dsimp only
    rw [List.find?_map]
    cases hfind : (List.range taken.length).find?
        ((fun n => decide (numbered base n ∉ taken)) ∘ (· + 2)) with
    | none =>
      rw [List.find?_eq_none] at hfind
      exact absurd (by simpa using hfree) (hfind k (List.mem_range.mpr hk))
    | some n =>
      obtain ⟨hn, -, hleast⟩ := List.find?_range_eq_some.mp hfind
      rw [Option.map_some, Option.getD_some]
      refine .numbered hbase (Nat.le_add_left 2 n) (by simpa using hn) fun m h2 hm => ?_
      -- a smaller number was tried before
      have htried := hleast (m - 2) (by omega)
      have hback : m - 2 + 2 = m := by omega
      simpa [hback] using htried
  · rename_i hbase
    exact .base hbase

/-- The taken names count, and not the order in which they stand. -/
theorem LeastFree.congr {taken' : List String} (h : LeastFree base taken name)
    (htaken : ∀ x, x ∈ taken ↔ x ∈ taken') : LeastFree base taken' name := by
  cases h with
  | base hfree => exact .base (mt (htaken _).mpr hfree)
  | numbered hbase h2 hfree hleast =>
    refine .numbered ((htaken _).mp hbase) h2 (mt (htaken _).mpr hfree) ?_
    intro m hm hmn
    exact (htaken _).mp (hleast m hm hmn)

/-- **The name is free.** -/
theorem unique_not_mem (base : String) (taken : List String) : unique base taken ∉ taken := by
  have h := leastFree_unique base taken
  generalize unique base taken = name at h
  cases h with
  | base hfree => exact hfree
  | numbered _ _ hfree _ => exact hfree

/-! ### The search -/

/-- The search for a free name tries one number after the other.  It ends at the first one that makes
    the name free, and goes on behind every other. -/
inductive SearchEnds (base : String) (taken : List String) : Nat → Nat → Prop
  | here {n : Nat} : numbered base n ∉ taken → SearchEnds base taken n n
  | later {n m : Nat} : numbered base n ∈ taken → SearchEnds base taken (n + 1) m →
    SearchEnds base taken n m

/-- A search ends at the first number from where it begins that makes the name free. -/
theorem searchEnds_iff {n m : Nat} :
    SearchEnds base taken n m ↔
      n ≤ m ∧ numbered base m ∉ taken ∧ ∀ k, n ≤ k → k < m → numbered base k ∈ taken := by
  constructor
  · intro h
    induction h with
    | here hfree => exact ⟨le_rfl, hfree, fun k hk hlt => absurd hlt (Nat.not_lt.mpr hk)⟩
    | @later n m htaken _ ih =>
      obtain ⟨hle, hfree, hbefore⟩ := ih
      refine ⟨Nat.le_of_succ_le hle, hfree, fun k hk hlt => ?_⟩
      rcases Nat.eq_or_lt_of_le hk with rfl | hk
      · exact htaken
      · exact hbefore k hk hlt
  · rintro ⟨hle, hfree, hbefore⟩
    -- by the distance to the end, which each number that is taken brings down by one
    obtain ⟨distance, rfl⟩ := Nat.exists_eq_add_of_le hle
    induction distance generalizing n with
    | zero => exact .here hfree
    | succ distance ih =>
      have hnext : n + (distance + 1) = n + 1 + distance := by omega
      rw [hnext] at hfree hbefore ⊢
      exact .later (hbefore n le_rfl (by omega))
        (ih (by omega) hfree fun k hk hlt => hbefore k (by omega) hlt)

/-- **The search comes to an end, and the name is the one that it ends with.**  The name is free: it
    is the base if that is free, and else the base with the least number from two on that makes it
    free.  The search ends at that number and at no other one, and the number is at most one more than
    there are different names taken. -/
theorem unique_search (base : String) (taken : List String) :
    unique base taken ∉ taken ∧
    (base ∉ taken ∧ unique base taken = base ∨
      base ∈ taken ∧ ∃ n, (∀ m, SearchEnds base taken 2 m ↔ m = n) ∧
        unique base taken = numbered base n ∧
        IsLeast {m | 2 ≤ m ∧ numbered base m ∉ taken} n ∧ n ≤ taken.toFinset.card + 1) := by
  refine ⟨unique_not_mem base taken, ?_⟩
  have h := leastFree_unique base taken
  generalize unique base taken = name at h
  cases h with
  | base hbase => exact .inl ⟨hbase, rfl⟩
  | @numbered n hbase h2 hfree hbefore =>
    refine .inr ⟨hbase, n, fun m => ?_, rfl, ⟨⟨h2, hfree⟩, fun m hm => ?_⟩,
      le_card_of_taken hbase hbefore⟩
    · rw [searchEnds_iff]
      constructor
      · -- neither of two ends lies before the other
        rintro ⟨hm, hmfree, hmbefore⟩
        by_contra hne
        rcases Nat.lt_or_gt_of_ne hne with hlt | hlt
        · exact hmfree (hbefore m hm hlt)
        · exact hfree (hmbefore n h2 hlt)
      · rintro rfl
        exact ⟨h2, hfree, hbefore⟩
    · by_contra hlt
      exact hm.2 (hbefore m hm.1 (Nat.not_le.mp hlt))

example : unique "list" ["list2", "list", "list3", "list2"] = "list4" := by decide +kernel

/-- There are as many names as bases. -/
theorem length_uniqueAll (taken bases : List String) :
    (uniqueAll taken bases).length = bases.length := by
  induction bases generalizing taken with
  | nil => rfl
  | cons base bases ih => simp [uniqueAll, ih]

/-- Names that are given in order are free. -/
theorem not_mem_of_mem_uniqueAll {bases : List String} (h : name ∈ uniqueAll taken bases) :
    name ∉ taken := by
  induction bases generalizing taken with
  | nil => cases h
  | cons base bases ih =>
    rcases List.mem_cons.mp h with rfl | h
    · exact unique_not_mem base taken
    · exact fun hmem => ih h (List.mem_cons_of_mem _ hmem)

/-- **Names that are given in order are different.** -/
theorem nodup_uniqueAll (taken bases : List String) : (uniqueAll taken bases).Nodup := by
  induction bases generalizing taken with
  | nil => exact List.nodup_nil
  | cons base bases ih =>
    refine List.nodup_cons.mpr ⟨fun h => ?_, ih _⟩
    exact not_mem_of_mem_uniqueAll h List.mem_cons_self

/-- Each name is one of the bases, or one of them with a number. -/
theorem exists_base_of_mem_uniqueAll {bases : List String} (h : name ∈ uniqueAll taken bases) :
    ∃ base ∈ bases, name = base ∨ ∃ n, name = numbered base n := by
  induction bases generalizing taken with
  | nil => cases h
  | cons base bases ih =>
    rcases List.mem_cons.mp h with rfl | h
    · exact ⟨base, List.mem_cons_self, unique_eq base taken⟩
    · obtain ⟨b, hb, hname⟩ := ih h
      exact ⟨b, List.mem_cons_of_mem base hb, hname⟩

/-- A base that is free at the start is among the names: where it comes first it is given as it is,
    unless a base before it was given it. -/
theorem mem_uniqueAll_of_mem {bases : List String} (hbase : base ∈ bases) (hfree : base ∉ taken) :
    base ∈ uniqueAll taken bases := by
  induction bases generalizing taken with
  | nil => cases hbase
  | cons b bases ih =>
    by_cases hfirst : base = unique b taken
    · rw [uniqueAll, ← hfirst]
      exact List.mem_cons_self
    · have hne : base ≠ b := by
        rintro rfl
        apply hfirst
        rw [unique, if_neg hfree]
      have hrest := (List.mem_cons.mp hbase).resolve_left hne
      refine List.mem_cons_of_mem _ (ih hrest ?_)
      intro hmem
      exact (List.mem_cons.mp hmem).elim hfirst hfree

/-- Of names that are given in order, each is the least free one behind its base, where the names
    before it are taken. -/
theorem leastFree_of_zip {α : Type} {wanted : α → String} {items : List α} {item : α}
    {before after : List (α × String)}
    (h : items.zip (uniqueAll taken (items.map wanted)) = before ++ (item, name) :: after) :
    LeastFree (wanted item) ((before.map Prod.snd).reverse ++ taken) name := by
  -- a name that is given is taken from then on, and stands in front of those taken before
  induction items generalizing taken before with
  | nil => simp at h
  | cons x items ih =>
    rw [List.map_cons, uniqueAll, List.zip_cons_cons] at h
    cases before with
    | nil =>
      cases h
      exact leastFree_unique _ _
    | cons y before =>
      rw [List.cons_append, List.cons.injEq] at h
      obtain ⟨rfl, hrest⟩ := h
      simpa using ih hrest

/-! ### Characters -/

/-- A digit of the decimal text of a number. -/
theorem isDigit_of_mem_toString {n : Nat} {c : Char} (h : c ∈ (toString n).toList) :
    isDigit c = true := by
  rw [Nat.toString_eq_repr, Nat.toList_repr] at h
  have h := Nat.isDigit_of_mem_toDigits (by decide) (by decide) h
  simpa [isDigit, Char.isDigit, Char.le_def] using h

/-- A name with a number ends in a digit. -/
theorem getLast?_numbered (base : String) (n : Nat) :
    ∃ c, (numbered base n).toList.getLast? = some c ∧ isDigit c = true := by
  have hne : (toString n).toList ≠ [] := by
    rw [Nat.toString_eq_repr, Nat.toList_repr]
    exact Nat.toDigits_ne_nil
  have hlast := List.getLast?_eq_some_getLast hne
  refine ⟨_, ?_, isDigit_of_mem_toString (List.getLast_mem hne)⟩
  rw [numbered, String.toList_append, List.getLast?_append, hlast, Option.some_or]

/-- A unique name has the characters of its base and digits. -/
theorem all_unique (hdigit : ∀ c, isDigit c = true → P c) (hbase : All P base.toList)
    (h : name = base ∨ ∃ n, name = numbered base n) : All P name.toList := by
  rcases h with rfl | ⟨n, rfl⟩
  · exact hbase
  · rw [numbered, String.toList_append]
    exact hbase.append fun c hc => hdigit c (isDigit_of_mem_toString hc)

/-- Names that are given in order have the characters of their bases and digits. -/
theorem all_of_mem_uniqueAll (hdigit : ∀ c, isDigit c = true → P c) {bases : List String}
    (hbases : ∀ base ∈ bases, All P base.toList) (h : name ∈ uniqueAll taken bases) :
    All P name.toList := by
  obtain ⟨base, hbase, hname⟩ := exists_base_of_mem_uniqueAll h
  exact all_unique hdigit (hbases base hbase) hname

end ApiNodes.Name
