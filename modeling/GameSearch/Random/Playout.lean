import GameSearch.Game
import GameSearch.Number
import GameSearch.Random.Generator

/-!
# Random playouts

A playout continues a game with uniformly random legal actions and scores its end: `1` for a win of the given
side, `-1` for a loss, `0` for a draw. A capped playout that has used up its moves is a draw too, unless
the game has just ended.
-/

namespace GameSearch.Random

variable {Memory Position Player Action : Type} [DecidableEq Player]

/-- The score of a finished game for a side. -/
def outcomeScore (winner : Option Player) (side : Player) : Number :=
  match winner with
  | none => 0
  | some winner => if winner = side then 1 else .int (-1)

/-- Plays on for at most `moves` random moves. A game still running then scores `exhausted`. -/
def playout [Worded Player] (game : Game Position Player Action) (dice : Dice Memory)
    (exhausted : Except Fault Number) (side : Player) :
    (moves : Nat) → Position → Memory → Except Fault Number × Memory
  | 0, position, memory =>
    match game.status position with
    | .over winner => (.ok (outcomeScore winner side), memory)
    | .turn _ => (exhausted, memory)
  | moves + 1, position, memory =>
    match game.status position with
    | .over winner => (.ok (outcomeScore winner side), memory)
    | .turn player =>
      let actions := (game.legal position player).toList.toArray
      if nonempty : actions.size = 0 then (.error (.stuckPlayout (Worded.plain player)), memory)
      else
        let rolled := dice.roll actions.size memory
        have inRange : rolled.1 < actions.size :=
          dice.roll_lt _ _ (Nat.pos_of_ne_zero nonempty)
        match game.play position player actions[rolled.1] with
        | .error fault => (.error fault, rolled.2)
        | .ok next => playout game dice exhausted side moves next rolled.2

/-- A playout to the end of the game, or to its cap if it has one. -/
def boundedPlayout [Worded Player] (game : Game Position Player Action) (dice : Dice Memory)
    (cap : Option Int) (side : Player) (position : Position) (memory : Memory) :
    Except Fault Number × Memory :=
  match cap with
  | some cap => playout game dice (.ok 0) side cap.toNat position memory
  | none =>
    let moves := match game.height position with
      | some height => height + 1
      | none => Game.patience
    playout game dice (.error .unbounded) side moves position memory

end GameSearch.Random
