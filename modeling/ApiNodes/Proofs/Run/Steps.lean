import ApiNodes.Run.World
import Mathlib.Tactic.Common

namespace ApiNodes.Run

/-!
# Steps of a run

How a computation in the world ends, by how its parts do.
-/

variable {α β : Type} {m : Run α} {f : α → Run β} {w v w' : World} {a : α} {e : RunError}

/-- After a computation that returns, the next one goes on. -/
theorem bind_of_ok (h : m w = (.ok a, v)) : (m >>= f) w = f a v := by
  show (match m w with | (r, s) => ExceptT.bindCont f r s) = _
  rw [h]
  rfl

/-- After a computation that fails, there is no next one. -/
theorem bind_of_error (h : m w = (.error e, v)) : (m >>= f) w = (.error e, v) := by
  show (match m w with | (r, s) => ExceptT.bindCont f r s) = _
  rw [h]
  rfl

/-- Two computations in a row return when both do. -/
theorem bind_eq_ok_iff {b : β} :
    (m >>= f) w = (.ok b, w') ↔ ∃ a v, m w = (.ok a, v) ∧ f a v = (.ok b, w') := by
  cases hrun : m w with
  | mk result v =>
    cases result with
    | ok a =>
      rw [bind_of_ok hrun]
      refine ⟨fun h => ⟨a, v, rfl, h⟩, ?_⟩
      rintro ⟨_, _, heq, h⟩
      cases heq
      exact h
    | error e =>
      rw [bind_of_error hrun]
      constructor
      · intro h
        cases h
      · rintro ⟨_, _, heq, -⟩
        cases heq

/-- Two computations in a row fail when one of them does. -/
theorem bind_eq_error_iff :
    (m >>= f) w = (.error e, w') ↔
      m w = (.error e, w') ∨ ∃ a v, m w = (.ok a, v) ∧ f a v = (.error e, w') := by
  cases hrun : m w with
  | mk result v =>
    cases result with
    | ok a =>
      rw [bind_of_ok hrun]
      refine ⟨fun h => .inr ⟨a, v, rfl, h⟩, ?_⟩
      rintro (heq | ⟨_, _, heq, h⟩)
      · cases heq
      · cases heq
        exact h
    | error e' =>
      rw [bind_of_error hrun]
      constructor
      · intro h
        cases h
        exact .inl rfl
      · rintro (heq | ⟨_, _, heq, -⟩)
        · cases heq
          rfl
        · cases heq

/-- A computation that is followed by another in any case fails as one of them does. -/
theorem ensuring_eq_error_imp {after : Run Unit} (h : ensuring m after w = (.error e, w')) :
    (∃ v, m w = (.error e, v)) ∨ ∃ v, after v = (.error e, w') := by
  unfold ensuring at h
  cases hrun : m w with
  | mk result v =>
    cases hafter : after v with
    | mk result' v' =>
      rw [hrun] at h
      cases result <;> simp only [hafter] at h <;> cases result' <;> cases h
      · exact .inr ⟨v, hafter⟩
      · exact .inl ⟨v, rfl⟩
      · exact .inr ⟨v, hafter⟩

/-- A failure goes through when refusals are caught, unless it is one. -/
theorem attempt_eq_error_imp (h : attempt m w = (.error e, w')) :
    m w = (.error e, w') ∧ ∀ refusal, e ≠ .file refusal := by
  unfold attempt at h
  cases hrun : m w with
  | mk result v =>
    rw [hrun] at h
    cases result with
    | ok a => cases h
    | error e' => cases e' <;> cases h <;> exact ⟨rfl, by simp⟩

/-- What is returned when refusals are caught: a value, or the refusal that was made. -/
theorem attempt_eq_ok_imp {r : Except Files.FileError α} (h : attempt m w = (.ok r, w')) :
    (∃ a, r = .ok a ∧ m w = (.ok a, w')) ∨
      ∃ refusal, r = .error refusal ∧ m w = (.error (.file refusal), w') := by
  unfold attempt at h
  cases hrun : m w with
  | mk result v =>
    rw [hrun] at h
    cases result with
    | ok a =>
      cases h
      exact .inl ⟨a, rfl, rfl⟩
    | error e =>
      cases e <;> cases h
      exact .inr ⟨_, rfl, rfl⟩

/-- The world with one more record in its log. -/
def World.noting (w : World) (level : Level) (origin : Origin) (message : String) : World :=
  { w with log := w.log ++ [⟨level, origin, message⟩] }

/-- Saying what a run is doing returns. -/
theorem inform_eq (origin : Origin) (message : String) :
    inform origin message w = (.ok (), w.noting .info origin message) := rfl

end ApiNodes.Run
