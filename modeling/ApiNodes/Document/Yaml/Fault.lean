namespace ApiNodes.Yaml

/-!
# Faults of a YAML text

A text is refused for one cause: the first that its reader comes to.
-/

/-- Why a text is refused. -/
inductive Fault
  /-- The text is no document, or a node does not fit its tag. -/
  | malformed
  /-- A number, a date or a character that does not exist. -/
  | badNumber
  /-- A number without characters. -/
  | noNumber
  /-- A number beyond the range of its kind. -/
  | tooLarge
  /-- A word that is no truth value. -/
  | badTruth
  /-- A text that is no date. -/
  | badMoment
  /-- A date is asked of a mapping. -/
  | mappingAsMoment
  /-- Collections inside one another beyond the limit. -/
  | tooDeep
  deriving DecidableEq, Repr

/-- What has to be there; a text without it is malformed. -/
def needed {α : Type} (found : Option α) : Except Fault α :=
  match found with
  | some a => .ok a
  | none => .error .malformed

end ApiNodes.Yaml
