namespace ApiNodes.Text

/-!
# White space

The white space of the Unicode character set, with the four ASCII separators
`U+001C … U+001F`.  Trimming drops it from both ends; collapsing writes every run of it as
one space.
-/

/-- The white-space characters.  The zero-width space and the byte-order mark are none. -/
def isBlank (c : Char) : Bool :=
  let n := c.toNat
  decide (0x9 ≤ n ∧ n ≤ 0xd) || decide (0x1c ≤ n ∧ n ≤ 0x20) || n == 0x85 || n == 0xa0 ||
    n == 0x1680 || decide (0x2000 ≤ n ∧ n ≤ 0x200a) || n == 0x2028 || n == 0x2029 ||
    n == 0x202f || n == 0x205f || n == 0x3000

/-- Drop white space from both ends. -/
def trimChars (s : List Char) : List Char :=
  ((s.dropWhile isBlank).reverse.dropWhile isBlank).reverse

/-- Write every run of white space as one space; `inRun` tells that the run's space is
    already written. -/
def collapseFrom (inRun : Bool) : List Char → List Char
  | [] => []
  | c :: r =>
    if isBlank c then (if inRun then collapseFrom true r else ' ' :: collapseFrom true r)
    else c :: collapseFrom false r

/-- Write every run of white space as one space. -/
def collapseBlanks (s : List Char) : List Char := collapseFrom false s

end ApiNodes.Text
