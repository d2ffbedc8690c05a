/-!
# Deadlines

A search asks its deadline again and again whether it has passed. A deadline is what it answers: `passed n` is
the answer to the `n`-th question of a search, counted from one. The `horizon` of a deadline is the first
question that it answers with yes; a deadline without a horizon never passes.

The time that goes by between two questions is not under the program's control. So a clock, which sets the
deadlines of a game, may set any deadlines, and each of them may answer otherwise than the others.
-/

namespace GameSearch

/-- The answers of a deadline to the questions of one search. -/
structure Deadline where
  passed : Nat → Bool
  /-- The first question that is answered with yes, if there is one. -/
  horizon : Option Nat
  passed_horizon : ∀ check, horizon = some check → 0 < check ∧ passed check = true
  horizon_le : ∀ check, 0 < check → passed check = true →
    ∃ first, horizon = some first ∧ first ≤ check

namespace Deadline

/-- The deadline that never passes. -/
def never : Deadline where
  passed _ := false
  horizon := none
  passed_horizon := by simp
  horizon_le := by simp

/-- The deadline that passes at the given check and stays passed. -/
def atCheck (first : Nat) : Deadline where
  passed check := first ≤ check
  horizon := some (max first 1)
  passed_horizon := by
    rintro _ ⟨⟩
    exact ⟨Nat.le_max_right first 1, decide_eq_true (Nat.le_max_left first 1)⟩
  horizon_le check positive passed :=
    ⟨_, rfl, Nat.max_le.mpr ⟨of_decide_eq_true passed, positive⟩⟩

/-- The deadline that has already passed. -/
def expired : Deadline := atCheck 0

end Deadline

/-- Deadlines that are set one after another: number `count` is set after `count` others. -/
abbrev Deadlines := Nat → Deadline

/-- The deadlines that are set some seconds ahead. -/
abbrev Clock := Float → Deadlines

end GameSearch
