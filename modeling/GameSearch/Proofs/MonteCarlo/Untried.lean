import GameSearch.Game
import Mathlib.Data.List.Find
import Mathlib.Data.List.Nodup

/-!
# The first untried action

An enumeration of legal actions may repeat itself; what matters is the order in which its actions
first come up. As long as the tried actions are the first few distinct ones, the first untried
action is the next distinct one.
-/

namespace GameSearch

variable {Position Player Action : Type} [DecidableEq Action]

section Distinct

variable {actions : List Action}

theorem nodup_eraseDups (actions : List Action) : actions.eraseDups.Nodup := by
  induction length : actions.length using Nat.strong_induction_on generalizing actions with
  | h length ih =>
      cases actions with
      | nil => exact List.nodup_nil
      | cons action rest =>
          rw [List.eraseDups_cons, List.nodup_cons]
          constructor
          · simp [List.mem_eraseDups]
          · have shorter := List.length_filter_le (fun other => !other == action) rest
            rw [List.length_cons] at length
            exact ih _ (by omega) _ rfl

theorem find?_eraseDups (property : Action → Bool) (actions : List Action) :
    actions.eraseDups.find? property = actions.find? property := by
  induction length : actions.length using Nat.strong_induction_on generalizing actions with
  | h length ih =>
      cases actions with
      | nil => rfl
      | cons action rest =>
          rw [List.eraseDups_cons]
          cases holds : property action with
          | true => rw [List.find?_cons_of_pos holds, List.find?_cons_of_pos holds]
          | false =>
              have fails : ¬property action = true := by simp [holds]
              have shorter := List.length_filter_le (fun other => !other == action) rest
              rw [List.length_cons] at length
              rw [List.find?_cons_of_neg fails, List.find?_cons_of_neg fails,
                ih _ (by omega) _ rfl, List.find?_filter]
              apply List.find?_congr
              intro other _
              by_cases same : other = action
              · simp [same, holds]
              · simp [same]

/-- In a list without repetitions the first element outside a prefix is the one that follows it. -/
theorem find?_not_mem_take (nodup : actions.Nodup) (count : Nat) :
    actions.find? (· ∉ actions.take count) = actions[count]? := by
  induction actions generalizing count with
  | nil => rfl
  | cons action rest ih =>
      rcases List.nodup_cons.mp nodup with ⟨new, nodup⟩
      cases count with
      | zero => simp
      | succ count =>
          rw [List.find?_cons_of_neg (by simp), List.getElem?_cons_succ, ← ih nodup count]
          apply List.find?_congr
          intro other mem
          have different : other ≠ action := by
            rintro rfl
            exact new mem
          simp [different]

end Distinct

namespace Game

variable {game : Game Position Player Action} {position : Position} {mover : Player}

/-- The distinct legal actions of the player to move, in order; there are none once the game is
over. -/
def choices (game : Game Position Player Action) (position : Position) : List Action :=
  match game.status position with
  | .over _ => []
  | .turn mover => (game.legal position mover).toList.eraseDups

theorem choices_of_over {winner : Option Player} (ended : game.status position = .over winner) :
    game.choices position = [] := by
  simp only [choices, ended]

theorem choices_of_turn (turn : game.status position = .turn mover) :
    game.choices position = (game.legal position mover).toList.eraseDups := by
  simp only [choices, turn]

theorem nodup_choices : (game.choices position).Nodup := by
  unfold choices
  split
  · exact List.nodup_nil
  · exact nodup_eraseDups _

theorem mem_choices (turn : game.status position = .turn mover) {action : Action} :
    action ∈ game.choices position ↔ action ∈ game.legal position mover := by
  rw [choices_of_turn turn, List.mem_eraseDups, Moves.mem_def]

theorem firstUntried_eq (turn : game.status position = .turn mover) (tried : List Action) :
    (game.legal position mover).firstUntried tried tried =
      (game.choices position).find? (· ∉ tried) := by
  rw [Moves.firstUntried_eq tried _ tried fun _ => id, choices_of_turn turn, find?_eraseDups]

theorem firstUntried_eq_none (turn : game.status position = .turn mover) {tried : List Action} :
    (game.legal position mover).firstUntried tried tried = none ↔
      ∀ action ∈ game.choices position, action ∈ tried := by
  rw [firstUntried_eq turn, List.find?_eq_none]
  simp

end Game

end GameSearch
