import GameSearch.Proofs.Search.Agenda
import GameSearch.Search.AlphaBeta

/-!
# The course of alpha-beta search

`Game.prune` is alpha-beta search without deadline, memory and faults. Unlike that of minimax, its
course depends on the scores that it meets, so both are computed together. The course is the agenda
of the position with some parts left out.
-/

namespace GameSearch

open Course

variable {Position Player Action : Type}

/-- The course of a search and what it finds in the end. -/
structure Journey (Position Action : Type) where
  course : Course Position
  result : Tracker Action

/-- The journey through the positions that moves lead to, until the window closes. -/
def Journey.prune (child : Window → Position → Journey Position Action) (aim : Aim) :
    List (Action × Position) → Window → Tracker Action → Journey Position Action
  | [], _, best => ⟨[], best⟩
  | (action, next) :: rest, window, best =>
    let first := child window next
    let best := best.insert aim action first.result.score
    let window := window.narrow first.result.score aim
    let later := if window.isClosed then ⟨[], best⟩ else prune child aim rest window best
    ⟨.ask :: (first.course ++ later.course), later.result⟩

/-- The journey of alpha-beta search over a number of plies inside a window. -/
def Game.prune [DecidableEq Player] (game : Game Position Player Action) (value : Position → Int)
    (seeker : Player) : (plies : Nat) → Window → Position → Journey Position Action
  | 0, _, position => ⟨[.score position], .start (.int (value position))⟩
  | plies + 1, window, position =>
    match game.status position with
    | .over _ => ⟨[.score position], .start (.int (value position))⟩
    | .turn mover =>
      match game.successors position mover with
      | [] => ⟨[.score position], .start (.int (value position))⟩
      | first :: others =>
        let aim := Aim.ofMover seeker mover
        Journey.prune (game.prune value seeker plies) aim (first :: others) window
          (.start aim.baseline)

namespace Journey

variable {child : Window → Position → Journey Position Action} {aim : Aim}
  {reached : List (Action × Position)} {window : Window} {best : Tracker Action}

theorem holdsInteger_prune
    (integers : ∀ window next, (child window next).result.score.IsInteger)
    (holds : best.HoldsInteger) : (prune child aim reached window best).result.HoldsInteger := by
  induction reached generalizing window best with
  | nil => exact holds
  | cons entry reached ih =>
      have saw : best.SawIntegers aim := .inr holds
      have inserted := saw.insert entry.1 (integers window entry.2)
      simp only [prune]
      split
      · exact inserted
      · exact ih inserted

theorem holdsInteger_prune_of_ne_nil
    (integers : ∀ window next, (child window next).result.score.IsInteger)
    (saw : best.SawIntegers aim) (movable : reached ≠ []) :
    (prune child aim reached window best).result.HoldsInteger := by
  cases reached with
  | nil => exact absurd rfl movable
  | cons entry reached =>
      have inserted := saw.insert entry.1 (integers window entry.2)
      simp only [prune]
      split
      · exact inserted
      · exact holdsInteger_prune integers inserted

theorem prune_sublist {agenda : Position → Course Position}
    (sublist : ∀ window next, (child window next).course.Sublist (agenda next)) :
    (prune child aim reached window best).course.Sublist
      (reached.flatMap fun entry => .ask :: agenda entry.2) := by
  induction reached generalizing window best with
  | nil => exact List.nil_sublist _
  | cons entry reached ih =>
      rw [List.flatMap_cons]
      apply List.Sublist.append ((sublist window entry.2).cons_cons .ask)
      split
      · exact List.nil_sublist _
      · exact ih

theorem paid_prune (paid : ∀ window next, Paid (.ask :: (child window next).course)) :
    Paid (prune child aim reached window best).course := by
  induction reached generalizing window best with
  | nil => exact paid_nil
  | cons entry reached ih =>
      apply (paid window entry.2).append
      split
      · exact paid_nil
      · exact ih

end Journey

namespace Game

variable [DecidableEq Player] {game : Game Position Player Action} {value : Position → Int}
  {seeker mover : Player} {plies : Nat} {window : Window} {position : Position}

theorem prune_of_isLeaf (leaf : game.IsLeaf plies position) :
    game.prune value seeker plies window position =
      ⟨[.score position], .start (.int (value position))⟩ := by
  cases plies with
  | zero => rfl
  | succ plies =>
      have stuck := leaf.resolve_left (Nat.succ_ne_zero plies)
      rcases status : game.status position with mover | winner
      · have none : game.successors position mover = [] := successors_eq_nil.mpr (stuck mover)
        simp only [prune, status, none]
      · simp only [prune, status]

theorem prune_of_turn (turn : game.status position = .turn mover)
    (movable : game.successors position mover ≠ []) :
    game.prune value seeker (plies + 1) window position =
      Journey.prune (game.prune value seeker plies) (Aim.ofMover seeker mover)
        (game.successors position mover) window (.start (Aim.ofMover seeker mover).baseline) := by
  rcases reached : game.successors position mover with _ | ⟨first, others⟩
  · exact absurd reached movable
  · simp only [prune, turn, reached]

theorem isInteger_prune :
    (game.prune value seeker plies window position).result.score.IsInteger := by
  induction plies generalizing window position with
  | zero => exact ⟨_, rfl⟩
  | succ plies ih =>
      by_cases leaf : game.IsLeaf (plies + 1) position
      · rw [prune_of_isLeaf leaf]
        exact ⟨_, rfl⟩
      · rcases exists_turn_of_not_isLeaf leaf with ⟨mover, turn, movable⟩
        rw [prune_of_turn turn movable]
        apply Tracker.HoldsInteger.isInteger
        exact Journey.holdsInteger_prune_of_ne_nil (fun _ _ => ih) (.inl rfl) movable

theorem spends_prune :
    game.Spends plies position (game.prune value seeker plies window position).course := by
  induction plies generalizing window position with
  | zero => exact spends_of_isLeaf (.inl rfl)
  | succ plies ih =>
      by_cases leaf : game.IsLeaf (plies + 1) position
      · rw [prune_of_isLeaf leaf]
        exact spends_of_isLeaf leaf
      · rcases exists_turn_of_not_isLeaf leaf with ⟨mover, turn, movable⟩
        rw [prune_of_turn turn movable]
        constructor
        · rw [agenda_of_turn turn movable]
          exact Journey.prune_sublist fun _ _ => ih.sublist
        · exact fun isLeaf => absurd isLeaf leaf
        · exact fun _ => Journey.paid_prune fun _ _ => ih.ask_paid

end Game

end GameSearch
