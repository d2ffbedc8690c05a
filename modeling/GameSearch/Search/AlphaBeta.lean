import GameSearch.Search.Minimax

/-!
# Alpha-beta pruning

Minimax that skips children which cannot change the result. The window holds the scores that both sides can
already be sure of; once it closes, the position's other moves are not looked at. A position answers
with the best score it has seen, which may lie outside the window.
-/

namespace GameSearch

variable {Memory Position Player Action : Type} [DecidableEq Player]

/-- The greatest score the seeker is sure of, and the least one everybody else is sure of. -/
structure Window where
  alpha : Number
  beta : Number

namespace Window

/-- Nobody is sure of anything. -/
def full : Window := ⟨.below, .above⟩

/-- The window after a child's score. -/
def narrow (window : Window) (score : Number) : Aim → Window
  | .greatest => { window with alpha := window.alpha.max score }
  | .least => { window with beta := window.beta.min score }

/-- Whether no score lies strictly inside. -/
def isClosed (window : Window) : Bool := window.beta.atMost window.alpha

end Window

/-- Searches the children that the remaining moves of `mover` lead to, until the window closes. -/
def searchMovesWithin (game : Game Position Player Action) (deadline : Deadline)
    (child : Window → Position → SearchM Memory (Tracker Action)) (position : Position)
    (mover : Player) (aim : Aim) :
    Moves Action → Window → Tracker Action → SearchM Memory (Tracker Action)
  | .done, _, best => return best
  | .next action rest, window, best => do
    if ← SearchM.expired deadline then return best.truncate
    let result ← child window (← game.play position mover action)
    if result.truncated then return best.truncate
    let best := best.insert aim action result.score
    let window := window.narrow result.score aim
    if window.isClosed then return best
    searchMovesWithin game deadline child position mover aim (rest ()) window best

/-- Alpha-beta search over a number of plies inside a window. -/
def alphaBeta (game : Game Position Player Action) (evaluator : Evaluator Memory Position Player)
    (deadline : Deadline) (seeker : Player) :
    (plies : Nat) → Window → Position → SearchM Memory (Tracker Action)
  | 0, _, position => scoreLeaf evaluator seeker position
  | plies + 1, window, position =>
    match game.status position with
    | .over _ => scoreLeaf evaluator seeker position
    | .turn mover => do
      let aim := Aim.ofMover seeker mover
      let best ← searchMovesWithin game deadline (alphaBeta game evaluator deadline seeker plies)
        position mover aim (game.legal position mover) window (.start aim.baseline)
      if best.truncated || best.hasAction then return best
      scoreLeaf evaluator seeker position

end GameSearch
