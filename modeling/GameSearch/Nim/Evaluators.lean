import GameSearch.Gauge
import GameSearch.Nim.Oracle

/-!
# Evaluators for Nim

Three rules that score a position for a side: by who has won, by the closed form, and by the nim-sum.
-/

namespace GameSearch.Nim

/-- The score of a finished game. -/
def outcome (position : Position) (side : Player) : Option Int :=
  match position.status with
  | .over winner => some (if winner = some side then 1 else -1)
  | .turn _ => none

/-- One for a win, minus one for a loss, zero while the game is running. -/
def winLossScore (position : Position) (side : Player) : Int :=
  (outcome position side).getD 0

/-- One if the side wins with perfect play, else minus one. -/
def perfectScore (position : Position) (side : Player) : Except Fault Int :=
  match outcome position side with
  | some score => .ok score
  | none => do
    let moverWins ← position.isWinning
    return if moverWins = decide (position.turn = side) then 1 else -1

/-- A thousand for a win; while the game is running the nim-sum, positive for the player to move. -/
def nimSumScore (position : Position) (side : Player) : Int :=
  match outcome position side with
  | some score => score * 1000
  | none => if position.turn = side then position.nimSum else -position.nimSum

/-- The gauge of wins and losses. -/
def winLoss : Gauge Position Player :=
  .rule "NimWinLossEvaluator" fun position side => .ok (.int (winLossScore position side))

/-- The gauge of the closed form. -/
def perfect : Gauge Position Player :=
  .rule "NimPerfectEvaluator" fun position side => Number.int <$> perfectScore position side

def nimSum : Gauge Position Player :=
  .rule "NimSumEvaluator" fun position side => .ok (.int (nimSumScore position side))

end GameSearch.Nim
