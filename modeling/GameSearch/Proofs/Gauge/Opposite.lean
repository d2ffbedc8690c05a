import GameSearch.Nim.Evaluators
import GameSearch.Proofs.Nim.Optimal
import GameSearch.Proofs.Random.Rollout
import GameSearch.Proofs.Search.Parallel

/-!
# Gauges for two players

How a random playout goes does not depend on the side that it is scored for; in a game that is bound
to end, all it comes to is who has won. So playouts score a position for two opponents with opposite
integers and roll the same dice for both. Weighted sums with integer weights pass this on.
-/

namespace GameSearch

section

variable {Memory Position Player Action : Type} {game : Game Position Player Action}
  {position : Position} {first second : Player}

namespace Random

variable [DecidableEq Player] [Worded Player]

/-- A playout, capped or not, comes to the same end for every side. -/
theorem exists_boundedPlayout_eq (ends : game.AlwaysEnds) (dice : Dice Memory) (cap : Option Int)
    (position : Position) (memory : Memory) :
    ∃ winner after,
      (∀ player, winner = some player → ∃ final, game.status final = .over (some player)) ∧
      ∀ side, boundedPlayout game dice cap side position memory =
        (.ok (outcomeScore winner side), after) := by
  rcases exists_rollout ends dice position memory with
    ⟨history, last, after, height, rollout, known, short⟩
  rcases rollout.exists_over with ⟨winner, ended⟩
  have won : ∀ player, winner = some player →
      ∃ final, game.status final = .over (some player) := by
    rintro player rfl
    exact ⟨last, ended⟩
  cases cap with
  | none =>
      exact ⟨winner, after, won, fun _ => rollout.boundedPlayout_none ended known short⟩
  | some cap =>
      rcases Nat.lt_or_ge cap.toNat history.length with fewer | enough
      · rcases rollout.exists_playout_of_lt fewer with ⟨cut, runs_out⟩
        exact ⟨none, cut, by simp, fun side => runs_out (.ok 0) side⟩
      · exact ⟨winner, after, won, fun _ => rollout.playout_of_le ended enough⟩

omit [Worded Player] in
theorem exists_outcomeScore_eq (distinct : first ≠ second) {winner : Option Player}
    (between : ∀ player, winner = some player → player = first ∨ player = second) :
    ∃ score : Int, outcomeScore winner first = .int score ∧
      outcomeScore winner second = .int (-score) := by
  rcases winner with _ | winner
  · exact ⟨0, rfl, rfl⟩
  · rcases between winner rfl with rfl | rfl
    · refine ⟨1, ?_, ?_⟩
      · rw [outcomeScore, if_pos rfl]
        rfl
      · rw [outcomeScore, if_neg distinct]
    · refine ⟨-1, ?_, ?_⟩
      · rw [outcomeScore, if_neg distinct.symm]
      · rw [outcomeScore, if_pos rfl]
        rfl

end Random

namespace Gauge

/-- The gauges that score every position for two players with opposite integers: such rules, random
playouts, and weighted sums of such gauges with integer weights. -/
inductive ZeroSum (first second : Player) : Gauge Position Player → Prop where
  | rule {name : String} {scoring : Position → Player → Except Fault Number}
      (opposite : ∀ position, ∃ score : Int, scoring position first = .ok (.int score) ∧
        scoring position second = .ok (.int (-score))) : ZeroSum first second (.rule name scoring)
  | playout (seeding : Random.Seeding) (cap : Option Int) (generator : Random.Generator) :
      ZeroSum first second (.playout seeding cap generator)
  | empty : ZeroSum first second .empty
  | plus {sum part : Gauge Position Player} (weight : Int) (zeroSum : ZeroSum first second sum)
      (part_zeroSum : ZeroSum first second part) :
      ZeroSum first second (.plus sum (.int weight) part)

variable {gauge : Gauge Position Player}

theorem ZeroSum.restart (zeroSum : gauge.ZeroSum first second) :
    gauge.restart.ZeroSum first second := by
  induction zeroSum with
  | rule opposite => exact .rule opposite
  | playout seeding cap generator => exact .playout _ cap _
  | empty => exact .empty
  | plus weight _ _ sum_ih part_ih => exact .plus weight sum_ih part_ih

variable [DecidableEq Player] [Worded Player]

theorem ZeroSum.exists_score_eq (ends : game.AlwaysEnds) (distinct : first ≠ second)
    (winner : ∀ position player, game.status position = .over (some player) →
      player = first ∨ player = second)
    (zeroSum : gauge.ZeroSum first second) (position : Position) :
    ∃ (score : Int) (after : Gauge Position Player),
      gauge.score game position first = (.ok (.int score), after) ∧
      gauge.score game position second = (.ok (.int (-score)), after) ∧
      after.ZeroSum first second := by
  induction zeroSum with
  | @rule name scoring opposite =>
      rcases opposite position with ⟨score, scored, otherScored⟩
      refine ⟨score, .rule name scoring, ?_, ?_, .rule opposite⟩
      · rw [Gauge.score, scored]
      · rw [Gauge.score, otherScored]
  | playout seeding cap generator =>
      rcases Random.exists_boundedPlayout_eq ends Random.Generator.dice cap position generator with
        ⟨won, after, ended, same⟩
      have between : ∀ player, won = some player → player = first ∨ player = second := by
        intro player won
        rcases ended player won with ⟨final, status⟩
        exact winner final player status
      rcases Random.exists_outcomeScore_eq distinct between with ⟨score, scored, otherScored⟩
      refine ⟨score, .playout seeding cap after, ?_, ?_, .playout seeding cap after⟩
      · simp only [Gauge.score, same, scored]
      · simp only [Gauge.score, same, otherScored]
  | empty => exact ⟨0, .empty, rfl, rfl, .empty⟩
  | plus weight _ _ sum_ih part_ih =>
      rcases sum_ih with ⟨total, sum, summed, otherSummed, sum_zeroSum⟩
      rcases part_ih with ⟨value, part, scored, otherScored, part_zeroSum⟩
      refine ⟨total + weight * value, .plus sum (.int weight) part, ?_, ?_,
        .plus weight sum_zeroSum part_zeroSum⟩
      · have sum_eq : (do (Number.int total).plus (← (Number.int weight).times (.int value))) =
            .ok (.int (total + weight * value)) := rfl
        simp only [Gauge.score, summed, scored, sum_eq]
      · have sum_eq : (do (Number.int (-total)).plus (← (Number.int weight).times (.int (-value)))) =
            .ok (.int (-(total + weight * value))) := by
          change Except.ok (Number.int (-total + weight * -value)) = _
          rw [Int.mul_neg, ← Int.neg_add]
        simp only [Gauge.score, otherSummed, otherScored, sum_eq]

/-- Between two players of a game that is bound to end, such gauges are opposed. -/
theorem opposes_zeroSum (ends : game.AlwaysEnds) (distinct : first ≠ second)
    (winner : ∀ position player, game.status position = .over (some player) →
      player = first ∨ player = second) :
    (Gauge.evaluator game).Opposes (ZeroSum first second) first second where
  startSearch _ zeroSum := zeroSum.restart
  score position _ zeroSum := zeroSum.exists_score_eq ends distinct winner position

end Gauge

end

namespace Nim

theorem alwaysEnds : game.AlwaysEnds where
  movable position player status := by
    rcases Position.status_eq_turn_iff.mp status with ⟨running, rfl⟩
    exact Position.legal_ne_nil running
  bounded position := ⟨position.total, rfl⟩

theorem isBetween : game.IsBetween .one .two where
  distinct := by decide
  mover _ player _ := by cases player <;> decide

theorem exists_outcome_eq (position : Position) :
    (outcome position .one = none ∧ outcome position .two = none) ∨
      ∃ score : Int, outcome position .one = some score ∧
        outcome position .two = some (-score) := by
  unfold outcome
  cases ended : position.isOver with
  | false =>
      left
      rw [Position.status_of_running ended]
      exact ⟨rfl, rfl⟩
  | true =>
      right
      rw [Position.status_of_over ended]
      generalize (if position.misere then position.turn else position.turn.opponent) = winner
      cases winner with
      | one => exact ⟨1, rfl, rfl⟩
      | two => exact ⟨-1, rfl, rfl⟩

theorem zeroSum_winLoss : winLoss.ZeroSum .one .two := by
  apply Gauge.ZeroSum.rule
  intro position
  refine ⟨winLossScore position .one, rfl, ?_⟩
  rcases exists_outcome_eq position with ⟨unset, other_unset⟩ | ⟨score, set, other_set⟩
  · simp only [winLossScore, unset, other_unset]
    rfl
  · simp only [winLossScore, set, other_set]
    rfl

theorem zeroSum_nimSum : nimSum.ZeroSum .one .two := by
  apply Gauge.ZeroSum.rule
  intro position
  refine ⟨nimSumScore position .one, rfl, ?_⟩
  rcases exists_outcome_eq position with ⟨unset, other_unset⟩ | ⟨score, set, other_set⟩
  · simp only [nimSumScore, unset, other_unset]
    cases position.turn with
    | one => rfl
    | two => simp
  · simp only [nimSumScore, set, other_set, Int.neg_mul]

theorem opposes_zeroSum :
    (Gauge.evaluator game).Opposes (Gauge.ZeroSum .one .two) .one .two :=
  Gauge.opposes_zeroSum alwaysEnds isBetween.distinct fun _ player _ => by cases player <;> decide

end Nim

end GameSearch
