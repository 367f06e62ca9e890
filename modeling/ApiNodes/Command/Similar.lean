namespace ApiNodes.Command

/-!
# Similar words

How much of two words agrees: the longest piece that both have, and whatever agrees before
it and behind it.  Words that agree well enough are offered in place of a word that nobody
knows.
-/

/-- The length of the beginning that two words share. -/
def commonLength : List Char → List Char → Nat
  | a :: as, b :: bs => if a = b then commonLength as bs + 1 else 0
  | _, _ => 0

/-- A piece that two words share: its places in them and its length. -/
structure Shared where
  first : Nat
  second : Nat
  length : Nat
  deriving Repr

/-- The longest piece that two words share, the earliest of those in the first word. -/
def longestShared (a b : List Char) : Shared :=
  let places := (List.range a.length).flatMap fun i => (List.range b.length).map fun j => (i, j)
  places.foldl
    (fun best (i, j) =>
      let n := commonLength (a.drop i) (b.drop j)
      if best.length < n then ⟨i, j, n⟩ else best)
    ⟨0, 0, 0⟩

/-- The count of characters in which words agree, with at most `depth` levels of pieces. -/
def agreement : Nat → List Char → List Char → Nat
  | 0, _, _ => 0
  | depth + 1, a, b =>
    let s := longestShared a b
    if s.length = 0 then 0
    else
      s.length + agreement depth (a.take s.first) (b.take s.second) +
        agreement depth (a.drop (s.first + s.length)) (b.drop (s.second + s.length))

/-- A candidate with its agreement, and the length of both words. -/
structure Match where
  name : String
  agreed : Nat
  total : Nat

/-- The agreement of a candidate with a word. -/
def Match.of (word name : String) : Match :=
  ⟨name, agreement (name.length + 1) name.toList word.toList, name.length + word.length⟩

/-- Three fifths of both words agree. -/
def Match.isClose (m : Match) : Bool := decide (3 * m.total ≤ 10 * m.agreed)

/-- The first candidate is not worse than the second. -/
def Match.notWorse (m n : Match) : Bool :=
  decide (n.agreed * m.total < m.agreed * n.total) ||
    (m.agreed * n.total == n.agreed * m.total && decide (n.name ≤ m.name))

/-- The three best of the candidates that are close to a word, in the order of the
    alphabet. -/
def similar (word : String) (candidates : List String) : List String :=
  let close := ((candidates.map (Match.of word)).filter Match.isClose).mergeSort Match.notWorse
  ((close.take 3).map (·.name)).mergeSort fun a b => decide (a ≤ b)

end ApiNodes.Command
