import GameSearch.Proofs.Gauge.Opposite
import GameSearch.Proofs.Random.Rollout

/-!
# Random playouts of Nim

Nim always ends, with a winner, after at most as many moves as there are objects. So a random
playout that is not capped never fails and is a win or a loss, whatever the dice show; it is a win
for exactly one of the two players. A cap leaves a playout as it is if the line is no longer than
the cap, and makes it a draw otherwise.
-/

namespace GameSearch.Nim

open GameSearch.Random

theorem Position.exists_winner {position : Position} {winner : Option Player}
    (ended : game.status position = .over winner) : ∃ player, winner = some player := by
  have status : position.status = .over winner := ended
  unfold Position.status at status
  split at status
  · cases status
    exact ⟨_, rfl⟩
  · cases status

theorem outcomeScore_opponent (winner side : Player) :
    ∃ score : Int, (score = 1 ∨ score = -1) ∧ outcomeScore (some winner) side = .int score ∧
      outcomeScore (some winner) side.opponent = .int (-score) := by
  by_cases won : winner = side
  · refine ⟨1, .inl rfl, ?_, ?_⟩
    · rw [outcomeScore, if_pos won]
      rfl
    · rw [outcomeScore, if_neg]
      intro lost
      exact side.opponent_ne (lost.symm.trans won)
  · have lost : winner = side.opponent := Player.eq_opponent_of_ne won
    refine ⟨-1, .inr rfl, ?_, ?_⟩
    · rw [outcomeScore, if_neg won]
    · rw [outcomeScore, if_pos lost]
      rfl

/-- Whatever the dice show, a playout without a cap follows a line of no more moves than there are
objects, rolls once for each of them, and scores a win for the winner at its end and a loss for the
other player. With a cap it comes to the same if the line is no longer than the cap, and to a draw
otherwise; a cap below zero counts as zero. -/
theorem boundedPlayout_scores {Memory : Type} (dice : Dice Memory) (memory : Memory)
    (position : Position) :
    ∃ history last winner after,
      Rollout game dice position memory history last after ∧
      game.status last = .over (some winner) ∧
      history.length ≤ position.total ∧
      ∀ side,
        boundedPlayout game dice none side position memory =
          (.ok (if winner = side then 1 else .int (-1)), after) ∧
        (∀ rolls, boundedPlayout game dice.counted none side position (memory, rolls) =
          (.ok (if winner = side then 1 else .int (-1)), after, rolls + history.length)) ∧
        (∃ score : Int, (score = 1 ∨ score = -1) ∧
          (boundedPlayout game dice none side position memory).1 = .ok (.int score) ∧
          (boundedPlayout game dice none side.opponent position memory).1 =
            .ok (.int (-score))) ∧
        ∀ cap : Int, (boundedPlayout game dice (some cap) side position memory).1 =
          if (history.length : Int) ≤ max cap 0 then
            (boundedPlayout game dice none side position memory).1
          else .ok 0 := by
  rcases exists_rollout alwaysEnds dice position memory with
    ⟨history, last, after, height, rollout, known, short⟩
  rcases rollout.exists_over with ⟨winner, ended⟩
  rcases Position.exists_winner ended with ⟨winner, rfl⟩
  have uncapped : ∀ side, boundedPlayout game dice none side position memory =
      (.ok (outcomeScore (some winner) side), after) :=
    fun _ => rollout.boundedPlayout_none ended known short
  cases known
  refine ⟨history, last, winner, after, rollout, ended, short, fun side => ⟨?_, ?_, ?_, ?_⟩⟩
  · exact uncapped side
  · intro rolls
    exact (rollout.counted rolls).boundedPlayout_none ended rfl short
  · rcases outcomeScore_opponent winner side with ⟨score, unit, scored, otherScored⟩
    refine ⟨score, unit, ?_, ?_⟩
    · rw [uncapped, scored]
    · rw [uncapped, otherScored]
  · intro cap
    rw [rollout.boundedPlayout_some cap ended, uncapped]
    split
    · rfl
    · rfl

/-- With a cap below zero, a game that has ended is not scored as a draw, although its line of no
moves is longer than the cap. -/
theorem boundedPlayout_negative_cap :
    ¬∀ (cap : Int) (side : Player) (position last : Position) (generator after : Generator)
      (history : List (Player × Action)),
      Rollout game Generator.dice position generator history last after →
        (boundedPlayout game Generator.dice (some cap) side position generator).1 =
          if (history.length : Int) ≤ cap then
            (boundedPlayout game Generator.dice none side position generator).1
          else .ok 0 := by
  intro claimed
  let finished : Position := ⟨[0], .one, none, false, by decide, Position.unlimited_pos⟩
  have ended : game.status finished = .over (some .two) := rfl
  have rollout : Rollout game Generator.dice finished (.ofSeed 0) [] finished (.ofSeed 0) :=
    .done (Generator.ofSeed 0) ended
  have drawn := claimed (-1) .two finished finished (.ofSeed 0) (.ofSeed 0) [] rollout
  rw [rollout.boundedPlayout_some (-1) ended] at drawn
  simp only [outcomeScore, List.length_nil] at drawn
  have equal : (1 : Number) = 0 := Except.ok.inj drawn
  exact absurd (Number.int.inj equal) (by decide)

end GameSearch.Nim
