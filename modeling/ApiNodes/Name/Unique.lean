namespace ApiNodes.Name

/-!
# Unique names

A name that is taken gets a number: the least one from two on that makes it free.
-/

/-- A name with a number behind it. -/
def numbered (base : String) (n : Nat) : String := base ++ toString n

/-- The base itself if it is free, else the base with the least number that makes it free.
    One of the numbers up to one more than the count of taken names does. -/
def unique (base : String) (taken : List String) : String :=
  if base ∈ taken then
    let numbers := (List.range taken.length).map (· + 2)
    numbered base ((numbers.find? fun n => numbered base n ∉ taken).getD 2)
  else base

/-- Give every base a name of its own, in order, none of them in `taken`. -/
def uniqueAll (taken : List String) : List String → List String
  | [] => []
  | base :: rest => unique base taken :: uniqueAll (unique base taken :: taken) rest

end ApiNodes.Name
