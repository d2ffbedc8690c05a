import GameSearch.Search.AlphaBeta

/-!
# Depth-limited searches as a whole

Minimax and alpha-beta search from a root position to a depth. A negative depth means no limit: the search then
goes as deep as the game can last. In a game of unknown length it goes down a thousand plies and
refuses to score a position that is still running there.
-/

namespace GameSearch

variable {Memory Position Player Action : Type} [DecidableEq Player]

/-- The two ways to search to a depth. -/
inductive TreeMethod where
  | minimax
  | alphaBeta
  deriving DecidableEq, Repr

/-- How many plies a depth stands for at a position. -/
def Game.plies (game : Game Position Player Action) (depth : Int) (position : Position) : Nat :=
  if 0 ≤ depth then depth.toNat else (game.height position).getD 1000

/-- Searches from a root position over a number of plies. -/
def TreeMethod.search (method : TreeMethod) (game : Game Position Player Action)
    (evaluator : Evaluator Memory Position Player) (deadline : Deadline) (seeker : Player)
    (plies : Nat) (position : Position) : SearchM Memory (Tracker Action) :=
  match method with
  | .minimax => GameSearch.minimax game evaluator deadline seeker plies position
  | .alphaBeta => GameSearch.alphaBeta game evaluator deadline seeker plies .full position

/-- Searches from a root position to a depth. -/
def TreeMethod.run (method : TreeMethod) (game : Game Position Player Action)
    (evaluator : Evaluator Memory Position Player) (deadline : Deadline) (depth : Int)
    (seeker : Player) (position : Position) : SearchM Memory (Tracker Action) :=
  let plies := game.plies depth position
  if depth < 0 ∧ game.height position = none then
    method.search game (evaluator.onlyAtEnds game) deadline seeker plies position
  else method.search game evaluator deadline seeker plies position

theorem TreeMethod.run_of_limited {method : TreeMethod} {game : Game Position Player Action}
    {evaluator : Evaluator Memory Position Player} {deadline : Deadline} {depth : Int}
    {seeker : Player} {position : Position} (limited : 0 ≤ depth) :
    method.run game evaluator deadline depth seeker position =
      method.search game evaluator deadline seeker depth.toNat position := by
  have notUnlimited : ¬(depth < 0 ∧ game.height position = none) := by omega
  rw [run, if_neg notUnlimited, Game.plies, if_pos limited]

def TreeMethod.title (method : TreeMethod) (depth : Int) : Except Fault String := do
  return (match method with
    | .minimax => "Minimax"
    | .alphaBeta => "AlphaBeta") ++ "(" ++ (← Numeral.written depth) ++ ")"

/-- The best action of a search; the first legal one if no root child was scored in time. -/
def TreeMethod.pick (method : TreeMethod) (game : Game Position Player Action)
    (evaluator : Evaluator Memory Position Player) (deadline : Deadline) (depth : Int)
    (player : Player) (position : Position) : SearchM Memory Action := do
  let best ← method.run game evaluator deadline depth player position
  let best := match best.action, game.firstLegal position player with
    | none, some action => best.withFallback action
    | _, _ => best
  if best.truncated then
    SearchM.note .debug .treeSearch
      ((← method.title depth) ++ ": deadline exceeded, using best action so far")
  best.action?

end GameSearch
