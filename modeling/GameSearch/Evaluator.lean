import GameSearch.Game
import GameSearch.Number

/-!
# Evaluators

An evaluator scores a position from one player's point of view, higher being better. It may remember
something between two scores, such as the state of a random generator, and it is told when a search
starts so that it can begin afresh.
-/

namespace GameSearch

/-- A way to score positions, with a memory of its own. -/
structure Evaluator (Memory Position Player : Type) where
  /-- What is remembered at the start of a search. -/
  startSearch : Memory → Memory
  /-- The score of a position for a player, and what is remembered after it. -/
  score : Position → Player → Memory → Except Fault Number × Memory

/-- Which positions were scored, the latest first, and how many searches were started. -/
structure Trail (Position : Type) where
  scored : List Position
  starts : Nat

namespace Evaluator

variable {Memory Position Player Action : Type}

/-- An evaluator that computes its score from the position and the player alone. -/
def ofFunction (score : Position → Player → Number) : Evaluator Unit Position Player where
  startSearch := id
  score position player _ := (.ok (score position player), ())

/-- The same evaluator, which also records what it is asked. -/
def recorded (evaluator : Evaluator Memory Position Player) :
    Evaluator (Memory × Trail Position) Position Player where
  startSearch memory :=
    (evaluator.startSearch memory.1, { memory.2 with starts := memory.2.starts + 1 })
  score position player memory :=
    let (result, inner) := evaluator.score position player memory.1
    (result, inner, { memory.2 with scored := position :: memory.2.scored })

/-- The same evaluator, which scores only positions from which no move leads on. -/
def onlyAtEnds (evaluator : Evaluator Memory Position Player)
    (game : Game Position Player Action) : Evaluator Memory Position Player where
  startSearch := evaluator.startSearch
  score position player memory :=
    match game.status position with
    | .over _ => evaluator.score position player memory
    | .turn mover =>
      match game.firstLegal position mover with
      | none => evaluator.score position player memory
      | some _ => (.error .unbounded, memory)

end Evaluator

end GameSearch
