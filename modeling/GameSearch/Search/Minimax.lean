import GameSearch.Search.Effort
import GameSearch.Search.Tracker

/-!
# Minimax

Depth-limited search: the seeker takes the greatest score of a position's children and everybody else
the least. Positions at the depth limit, finished games and positions without legal actions are scored
by the evaluator from the seeker's point of view.

The deadline is asked before each child. A position whose enumeration it cuts short is truncated, and so
is its parent, which does not take the child's score into account: the score of a truncated position is
only a bound.
-/

namespace GameSearch

variable {Memory Position Player Action : Type} [DecidableEq Player]

def scoreLeaf (evaluator : Evaluator Memory Position Player) (seeker : Player)
    (position : Position) : SearchM Memory (Tracker Action) := do
  return .start (← SearchM.evaluate evaluator position seeker)

/-- Searches the children that the remaining moves of `mover` lead to. -/
def searchMoves (game : Game Position Player Action) (deadline : Deadline)
    (child : Position → SearchM Memory (Tracker Action)) (position : Position) (mover : Player)
    (aim : Aim) : Moves Action → Tracker Action → SearchM Memory (Tracker Action)
  | .done, best => return best
  | .next action rest, best => do
    if ← SearchM.expired deadline then return best.truncate
    let result ← child (← game.play position mover action)
    if result.truncated then return best.truncate
    searchMoves game deadline child position mover aim (rest ())
      (best.insert aim action result.score)

/-- Minimax search over a number of plies. -/
def minimax (game : Game Position Player Action) (evaluator : Evaluator Memory Position Player)
    (deadline : Deadline) (seeker : Player) :
    (plies : Nat) → Position → SearchM Memory (Tracker Action)
  | 0, position => scoreLeaf evaluator seeker position
  | plies + 1, position =>
    match game.status position with
    | .over _ => scoreLeaf evaluator seeker position
    | .turn mover => do
      let aim := Aim.ofMover seeker mover
      let best ← searchMoves game deadline (minimax game evaluator deadline seeker plies)
        position mover aim (game.legal position mover) (.start aim.baseline)
      if best.truncated || best.hasAction then return best
      scoreLeaf evaluator seeker position

end GameSearch
