import GameSearch.Proofs.Search.Course
import GameSearch.Proofs.Search.Exact

/-!
# The agenda of a position

A search that goes through all moves of a position, and of the positions that they lead to, has a
course that is known beforehand: its agenda. A question stands before each move, so a position that
is scored has been asked for, unless the search starts and ends there.
-/

namespace GameSearch

open Course

variable {Position Player Action : Type} {game : Game Position Player Action} {plies : Nat}
  {position : Position} {mover : Player} {course : Course Position}

theorem paid_flatMap {reached : List (Action × Position)} {agenda : Position → Course Position}
    (paid : ∀ next, Paid (.ask :: agenda next)) :
    Paid (reached.flatMap fun entry => .ask :: agenda entry.2) := by
  induction reached with
  | nil => exact paid_nil
  | cons entry reached ih =>
      rw [List.flatMap_cons]
      exact (paid entry.2).append ih

namespace Game

/-- Whether a search over a number of plies scores a position as it stands: no ply is left, or
nobody can play anything. -/
def IsLeaf (game : Game Position Player Action) (plies : Nat) (position : Position) : Prop :=
  plies = 0 ∨ ∀ player, (game.legal position player).toList = []

theorem exists_turn_of_not_isLeaf (inner : ¬game.IsLeaf (plies + 1) position) :
    ∃ mover, game.status position = .turn mover ∧ game.successors position mover ≠ [] := by
  rcases status : game.status position with mover | winner
  · refine ⟨mover, rfl, ?_⟩
    intro stuck
    apply inner
    right
    exact legal_eq_nil_of_turn status (successors_eq_nil.mp stuck)
  · exact absurd (.inr (legal_eq_nil_of_over status)) inner

/-- The course of a search that goes through all moves. -/
def agenda (game : Game Position Player Action) : (plies : Nat) → Position → Course Position
  | 0, position => [.score position]
  | plies + 1, position =>
    match game.status position with
    | .over _ => [.score position]
    | .turn mover =>
      match game.successors position mover with
      | [] => [.score position]
      | first :: others =>
        (first :: others).flatMap fun entry => .ask :: game.agenda plies entry.2

theorem agenda_of_isLeaf (leaf : game.IsLeaf plies position) :
    game.agenda plies position = [.score position] := by
  cases plies with
  | zero => rfl
  | succ plies =>
      have stuck := leaf.resolve_left (Nat.succ_ne_zero plies)
      rcases status : game.status position with mover | winner
      · have none : game.successors position mover = [] := successors_eq_nil.mpr (stuck mover)
        simp only [agenda, status, none]
      · simp only [agenda, status]

theorem agenda_of_turn (turn : game.status position = .turn mover)
    (movable : game.successors position mover ≠ []) :
    game.agenda (plies + 1) position =
      (game.successors position mover).flatMap fun entry => .ask :: game.agenda plies entry.2 := by
  rcases reached : game.successors position mover with _ | ⟨first, others⟩
  · exact absurd reached movable
  · simp only [agenda, turn, reached]

theorem legal_eq_done (stuck : ∀ player, (game.legal position player).toList = [])
    (player : Player) : game.legal position player = .done := by
  have none := stuck player
  cases moves : game.legal position player with
  | done => rfl
  | next action rest => simp [moves] at none

/-- What the course of a search tells about its position: a leaf is scored as it stands, and
elsewhere each position that is scored has been asked for. -/
structure Spends (game : Game Position Player Action) (plies : Nat) (position : Position)
    (course : Course Position) : Prop where
  sublist : course.Sublist (game.agenda plies position)
  leaf : game.IsLeaf plies position → course = [.score position]
  paid : ¬game.IsLeaf plies position → Paid course

theorem Spends.asks_le (spends : game.Spends plies position course) :
    asks course ≤ asks (game.agenda plies position) :=
  spends.sublist.countP_le

theorem Spends.ask_paid (spends : game.Spends plies position course) :
    Paid (.ask :: course) := by
  by_cases leaf : game.IsLeaf plies position
  · rw [spends.leaf leaf]
    exact paid_leaf position
  · exact (spends.paid leaf).ask

theorem spends_of_isLeaf (leaf : game.IsLeaf plies position) :
    game.Spends plies position [.score position] :=
  ⟨by rw [agenda_of_isLeaf leaf], fun _ => rfl, fun inner => absurd leaf inner⟩

theorem spends_agenda (game : Game Position Player Action) (plies : Nat)
    (position : Position) : game.Spends plies position (game.agenda plies position) := by
  induction plies generalizing position with
  | zero => exact spends_of_isLeaf (.inl rfl)
  | succ plies ih =>
      refine ⟨List.Sublist.refl _, agenda_of_isLeaf, ?_⟩
      intro inner
      rcases exists_turn_of_not_isLeaf inner with ⟨mover, turn, movable⟩
      rw [agenda_of_turn turn movable]
      exact paid_flatMap fun next => (ih next).ask_paid

end Game

end GameSearch
