import GameSearch.Agent.Registry
import GameSearch.Nim.Evaluators

/-!
# Reference agents for Nim

A perfect agent, two that search to the end of most games, and one that samples games at random.
-/

namespace GameSearch.Nim

/-- An agent that plays Nim. -/
abbrev NimAgent := Agent Position Player Action

/-- Random playouts without a seed. -/
def randomPlayout (entropy : Random.Entropy) : Gauge Position Player :=
  .ofSeeding (.fresh entropy) none

/-- Makes a gauge, which may turn out to be impossible. A gauge without a seed takes its generators
from what the system gives. -/
abbrev GaugeMaker := Random.Entropy → Except Fault (Gauge Position Player)

/-- Named gauges that agents can be described with; each agent gets one of its own. -/
abbrev GaugeTable := List (String × GaugeMaker)

/-- The gauges known by default. -/
def gauges : GaugeTable :=
  [("win_loss", fun _ => .ok winLoss), ("perfect", fun _ => .ok perfect),
   ("nim_sum", fun _ => .ok nimSum), ("random_playout", fun entropy => .ok (randomPlayout entropy))]

def GaugeTable.get? (table : GaugeTable) (key : String) : Option GaugeMaker :=
  (table.find? fun entry => entry.1 == key).map (·.2)

/-- The keys in alphabetical order. -/
def GaugeTable.keys (table : GaugeTable) : List String :=
  (table.map (·.1)).mergeSort fun left right => !(right < left)

/-- Adds named gauges; a new one replaces an old one of the same key. -/
def GaugeTable.extend (table added : GaugeTable) : GaugeTable :=
  (table.filter fun entry => (added.get? entry.1).isNone) ++ added

/-- Plays by the closed form. -/
def perfectAgent : NimAgent := .searcher "PERFECT" .singleLevel perfect true

/-- Searches 25 plies with minimax. -/
def minimaxAgent : NimAgent := .searcher "MINIMAX" (.tree .minimax 25) winLoss true

/-- Searches 25 plies with alpha-beta pruning. -/
def alphaBetaAgent : NimAgent := .searcher "ALPHA_BETA" (.tree .alphaBeta 25) winLoss true

/-- Samples games until the deadline. -/
def sampler (entropy : Random.Entropy) : NimAgent :=
  .searcher "UCT1" (.monteCarlo (.uct1 (.real 1)) none) (randomPlayout entropy) true

/-- The reference agents under their names. -/
def registry (entropy : Random.Entropy) : Registry Position Player Action where
  entries := [("perfect", perfectAgent), ("minimax", minimaxAgent),
    ("alpha_beta", alphaBetaAgent), ("uct1", sampler entropy)]
  nodup := by simp

end GameSearch.Nim
