import GameSearch.Search.Effort
import GameSearch.Search.Tracker

/-!
# Greedy search

Scores the position after every legal action once and takes the best one. The deadline is not asked: the
work is bounded by the number of legal actions.
-/

namespace GameSearch

variable {Memory Position Player Action : Type}

/-- Scores the children that the remaining moves lead to. -/
def scoreMoves (game : Game Position Player Action)
    (evaluator : Evaluator Memory Position Player) (position : Position) (player : Player) :
    Moves Action → Tracker Action → SearchM Memory (Tracker Action)
  | .done, best => return best
  | .next action rest, best => do
    let child ← game.play position player action
    let score ← SearchM.evaluate evaluator child player
    scoreMoves game evaluator position player (rest ()) (best.insertMax action score)

/-- The action whose position scores best for the player who takes it. -/
def pickGreedy (game : Game Position Player Action)
    (evaluator : Evaluator Memory Position Player) (position : Position) (player : Player) :
    SearchM Memory Action := do
  let best ← scoreMoves game evaluator position player (game.legal position player)
    (.start .below)
  best.action?

end GameSearch
