import GameSearch.MonteCarlo.Search
import GameSearch.Search.DepthLimited
import GameSearch.Search.SingleLevel

/-!
# Strategies

A strategy chooses an action for a player by exploring a position: greedily, by depth-limited search, or by
Monte Carlo tree search.
-/

namespace GameSearch

/-- A way to choose an action. -/
inductive Strategy where
  /-- The action whose position scores best. -/
  | singleLevel
  /-- Minimax or alpha-beta to a depth; a negative depth means no limit. -/
  | tree (method : TreeMethod) (depth : Int)
  /-- Monte Carlo tree search, with an optional limit on its iterations. -/
  | monteCarlo (scorer : ChildScorer) (maxIterations : Option Int)

namespace Strategy

def name : Strategy → Except Fault String
  | .singleLevel => .ok "SingleLevel"
  | .tree method depth => method.title depth
  | .monteCarlo scorer _ => .ok scorer.title

/-- A strategy with all its parts. -/
def literal : Strategy → Except Fault String
  | .singleLevel => .ok "SingleLevel"
  | .tree .minimax depth => do
    return "MinimaxAlgorithm(search_depth=" ++ (← Numeral.written depth) ++ ")"
  | .tree .alphaBeta depth => do
    return "AlphaBetaAlgorithm(search_depth=" ++ (← Numeral.written depth) ++ ")"
  | .monteCarlo scorer maxIterations => do
    let limit ← match maxIterations with
      | none => pure "None"
      | some limit => Numeral.written limit
    return "MonteCarloAlgorithm(child_score_algorithm=" ++ scorer.literal ++
      ", max_iterations=" ++ limit ++ ")"

variable {Memory Position Player Action : Type} [DecidableEq Player] [DecidableEq Action]

/-- Chooses an action for a player. -/
def pick [Worded Action] (strategy : Strategy) (game : Game Position Player Action)
    (evaluator : Evaluator Memory Position Player) (deadline : Deadline) (player : Player)
    (position : Position) : SearchM Memory (Option Action) :=
  match strategy with
  | .singleLevel => some <$> pickGreedy game evaluator position player
  | .tree method depth => some <$> method.pick game evaluator deadline depth player position
  | .monteCarlo scorer maxIterations =>
    pickMonteCarlo game evaluator deadline scorer maxIterations player position

end Strategy

end GameSearch
