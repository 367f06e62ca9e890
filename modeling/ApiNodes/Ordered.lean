namespace ApiNodes

/-!
# Ordered tables

A table is a list of pairs in order of first insertion.  Writing to a key that is present
replaces its value in place; writing to a new key appends it.
-/

variable {κ α β : Type} [DecidableEq κ]

/-- The value at a key. -/
def lookup? (k : κ) : List (κ × α) → Option α
  | [] => none
  | (k', a) :: r => if k' = k then some a else lookup? k r

/-- Write a value to a key, in place when the key is present. -/
def put (k : κ) (a : α) : List (κ × α) → List (κ × α)
  | [] => [(k, a)]
  | (k', b) :: r => if k' = k then (k', a) :: r else (k', b) :: put k a r

/-- Write a value only to a key that is not present. -/
def putNew (k : κ) (a : α) (table : List (κ × α)) : List (κ × α) :=
  match lookup? k table with
  | some _ => table
  | none => table ++ [(k, a)]

/-- The table of a list of pairs: a repeated key keeps its first place and its last value. -/
def tableOf (pairs : List (κ × α)) : List (κ × α) :=
  pairs.foldl (fun table (k, a) => put k a table) []

/-- What was written is found, and nothing else changes. -/
theorem lookup?_put (k k' : κ) (a : α) (table : List (κ × α)) :
    lookup? k' (put k a table) = if k = k' then some a else lookup? k' table := by
  induction table with
  | nil => by_cases h : k = k' <;> simp [put, lookup?, h]
  | cons p r ih =>
    obtain ⟨l, b⟩ := p
    by_cases h : l = k <;> by_cases h' : k = k' <;> simp_all [put, lookup?]

end ApiNodes
