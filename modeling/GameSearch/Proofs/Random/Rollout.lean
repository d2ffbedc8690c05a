import GameSearch.Random.Playout

/-!
# The line that the dice choose

A random playout follows one line of play: at every position the next roll of the dice picks one of
the legal actions. `Rollout` is that line from a position to an end of the game, with the memory of
the dice before and after. It does not mention a side, a cap or a bound, so that playouts for
different sides and with different caps can be compared with one and the same line.

A playout that may make as many moves as the line has scores the outcome at its end, and one that
may make fewer runs out of moves. In a game that is bound to end, there is such a line whatever the
dice show, and one roll for each of its moves.
-/

namespace GameSearch

variable {Memory Position Player Action : Type} {game : Game Position Player Action}

/-- Whether a game is bound to end, with a move at every position before. -/
structure Game.AlwaysEnds (game : Game Position Player Action) : Prop where
  movable : ∀ position player, game.status position = .turn player →
    (game.legal position player).toList ≠ []
  bounded : ∀ position, ∃ height, game.height position = some height

namespace Random

variable {dice : Dice Memory}

/-- The line of play from a position to an end of the game that the dice choose. -/
inductive Rollout (game : Game Position Player Action) (dice : Dice Memory) :
    Position → Memory → List (Player × Action) → Position → Memory → Prop where
  | done {position : Position} {winner : Option Player} (memory : Memory)
      (ended : game.status position = .over winner) :
      Rollout game dice position memory [] position memory
  | turn {position next last : Position} {player : Player} {action : Action}
      {memory rolled after : Memory} {place : Nat} {history : List (Player × Action)}
      (running : game.status position = .turn player)
      (roll : dice.roll (game.legal position player).toList.length memory = (place, rolled))
      (chosen : (game.legal position player).toList[place]? = some action)
      (played : game.play position player action = .ok next)
      (later : Rollout game dice next rolled history last after) :
      Rollout game dice position memory ((player, action) :: history) last after

theorem Rollout.exists_over {position last : Position} {memory after : Memory}
    {history : List (Player × Action)}
    (rollout : Rollout game dice position memory history last after) :
    ∃ winner, game.status last = .over winner := by
  induction rollout with
  | done _ ended => exact ⟨_, ended⟩
  | turn _ _ _ _ _ ih => exact ih

/-- Whatever the dice show, a game that is bound to end gets there. -/
theorem exists_rollout (ends : game.AlwaysEnds) (dice : Dice Memory) (position : Position)
    (memory : Memory) :
    ∃ history last after height, Rollout game dice position memory history last after ∧
      game.height position = some height ∧ history.length ≤ height := by
  rcases ends.bounded position with ⟨height, known⟩
  -- Every move lowers the bound on the moves to come, whichever the dice choose.
  induction height using Nat.strongRecOn generalizing position memory with
  | ind height ih =>
      rcases status : game.status position with player | winner
      · let actions := (game.legal position player).toList
        rcases roll : dice.roll actions.length memory with ⟨place, rolled⟩
        have inRange : place < actions.length := by
          have nonempty := List.length_pos_iff.mpr (ends.movable position player status)
          simpa [roll] using dice.roll_lt actions.length memory nonempty
        have legal : actions[place] ∈ game.legal position player := List.getElem_mem inRange
        rcases (game.play_isOk position player _).mpr legal with ⟨next, played⟩
        rcases game.height_play position player _ next height played known with
          ⟨fewer, next_known, lower⟩
        rcases ih fewer lower next rolled next_known with
          ⟨history, last, after, moves, rollout, moves_known, short⟩
        have moves_eq : moves = fewer := by simpa [next_known] using moves_known.symm
        refine ⟨(player, actions[place]) :: history, last, after, height, ?_, known, ?_⟩
        · exact .turn status roll (List.getElem?_eq_getElem inRange) played rollout
        · rw [List.length_cons]
          omega
      · exact ⟨[], position, memory, height, .done memory status, known, Nat.zero_le _⟩

section

variable [DecidableEq Player] [Worded Player] {exhausted : Except Fault Number} {side : Player}

theorem playout_over {position : Position} {winner : Option Player}
    (ended : game.status position = .over winner) (moves : Nat) (memory : Memory) :
    playout game dice exhausted side moves position memory =
      (.ok (outcomeScore winner side), memory) := by
  cases moves with
  | zero => simp only [playout, ended]
  | succ moves => simp only [playout, ended]

theorem playout_turn {position next : Position} {player : Player} {action : Action}
    {memory rolled : Memory} {place : Nat} (running : game.status position = .turn player)
    (roll : dice.roll (game.legal position player).toList.length memory = (place, rolled))
    (chosen : (game.legal position player).toList[place]? = some action)
    (played : game.play position player action = .ok next) (moves : Nat) :
    playout game dice exhausted side (moves + 1) position memory =
      playout game dice exhausted side moves next rolled := by
  rcases List.getElem?_eq_some_iff.mp chosen with ⟨inRange, at_place⟩
  have nonempty : (game.legal position player).toList.toArray.size ≠ 0 := by
    rw [List.size_toArray]
    omega
  rw [playout]
  simp only [running]
  rw [dif_neg nonempty]
  simp only [List.size_toArray, roll, List.getElem_toArray, at_place, played]

variable {position last : Position} {memory after : Memory} {history : List (Player × Action)}
  {winner : Option Player} {moves : Nat}

/-- A playout with enough moves scores the outcome at the end of the line. -/
theorem Rollout.playout_of_le (rollout : Rollout game dice position memory history last after)
    (ended : game.status last = .over winner) (enough : history.length ≤ moves) :
    playout game dice exhausted side moves position memory =
      (.ok (outcomeScore winner side), after) := by
  induction rollout generalizing moves with
  | done memory _ => exact playout_over ended moves memory
  | turn running roll chosen played _ ih =>
      cases moves with
      | zero => simp at enough
      | succ moves =>
          rw [playout_turn running roll chosen played]
          exact ih ended (by simpa using enough)

/-- A playout with fewer moves runs out of them, at a place that no side has a say in. -/
theorem Rollout.exists_playout_of_lt
    (rollout : Rollout game dice position memory history last after)
    (short : moves < history.length) :
    ∃ cut, ∀ exhausted side,
      playout game dice exhausted side moves position memory = (exhausted, cut) := by
  induction rollout generalizing moves with
  | done => simp at short
  | @turn _ _ _ _ _ memory _ _ _ _ running roll chosen played _ ih =>
      cases moves with
      | zero => exact ⟨memory, fun _ _ => by simp only [playout, running]⟩
      | succ moves =>
          rcases ih (by simpa using short) with ⟨cut, runs_out⟩
          refine ⟨cut, fun exhausted side => ?_⟩
          rw [playout_turn running roll chosen played]
          exact runs_out exhausted side

/-- Without a cap, the playout gets to the end of the line. -/
theorem Rollout.boundedPlayout_none {height : Nat}
    (rollout : Rollout game dice position memory history last after)
    (ended : game.status last = .over winner) (known : game.height position = some height)
    (short : history.length ≤ height) :
    boundedPlayout game dice none side position memory =
      (.ok (outcomeScore winner side), after) := by
  simp only [boundedPlayout, known]
  exact rollout.playout_of_le ended (Nat.le_succ_of_le short)

/-- A cap scores every playout that it cuts short as a draw. One below zero lets no move be made. -/
theorem Rollout.boundedPlayout_some (cap : Int)
    (rollout : Rollout game dice position memory history last after)
    (ended : game.status last = .over winner) :
    (boundedPlayout game dice (some cap) side position memory).1 =
      .ok (if (history.length : Int) ≤ max cap 0 then outcomeScore winner side else 0) := by
  simp only [boundedPlayout]
  by_cases enough : (history.length : Int) ≤ max cap 0
  · rw [if_pos enough, rollout.playout_of_le ended (by omega)]
  · rw [if_neg enough]
    rcases rollout.exists_playout_of_lt (show cap.toNat < history.length by omega) with
      ⟨cut, runs_out⟩
    rw [runs_out]

end

/-- An outcome scores one, minus one or nothing. -/
theorem exists_outcomeScore [DecidableEq Player] (winner : Option Player) (side : Player) :
    ∃ score : Int, outcomeScore winner side = .int score ∧ score.natAbs ≤ 1 := by
  unfold outcomeScore
  split
  · exact ⟨0, rfl, by decide⟩
  · split
    · exact ⟨1, rfl, by decide⟩
    · exact ⟨-1, rfl, by decide⟩

/-- The same dice, which also count how often they are rolled. -/
def Dice.counted (dice : Dice Memory) : Dice (Memory × Nat) where
  roll sides memory :=
    let (place, rolled) := dice.roll sides memory.1
    (place, rolled, memory.2 + 1)
  roll_lt sides memory positive := dice.roll_lt sides memory.1 positive

/-- The dice are rolled once for each move of the line. -/
theorem Rollout.counted {position last : Position} {memory after : Memory}
    {history : List (Player × Action)}
    (rollout : Rollout game dice position memory history last after) (rolls : Nat) :
    Rollout game dice.counted position (memory, rolls) history last
      (after, rolls + history.length) := by
  induction rollout generalizing rolls with
  | done memory ended => exact .done (memory, rolls) ended
  | @turn position _ _ player _ memory rolled _ place history running roll chosen played _ ih =>
      have counted_roll : dice.counted.roll (game.legal position player).toList.length
          (memory, rolls) = (place, rolled, rolls + 1) := by
        simp only [Dice.counted, roll]
      refine .turn running counted_roll chosen played ?_
      rw [List.length_cons, Nat.add_comm history.length 1, ← Nat.add_assoc]
      exact ih (rolls + 1)

end Random

end GameSearch
