import GameSearch.Nim.Position
import GameSearch.Proofs.Contest.Replay

/-!
# The turn limit

A turn limit only cuts a game short. The players, who cannot see it, take the same turns up to the
limit, whatever they remember; a game that ends on the last turn allowed has still ended by itself.

`Finishes` tells how a game without a limit goes on to its end, after however many turns this is.
-/

namespace GameSearch

variable {Memory Position Player Action : Type} {result : GameResult Player Action}

namespace GameResult

/-- The result of a game that is stopped after some turns, unless it is over by then. -/
def stoppedAfter (result : GameResult Player Action) (turns : Nat) : GameResult Player Action :=
  if result.turns ≤ turns then result else ⟨none, result.actions.take turns, false⟩

theorem stoppedAfter_of_le {turns : Nat} (within : result.turns ≤ turns) :
    result.stoppedAfter turns = result := if_pos within

theorem stoppedAfter_of_lt {turns : Nat} (beyond : turns < result.turns) :
    result.stoppedAfter turns = ⟨none, result.actions.take turns, false⟩ :=
  if_neg (Nat.not_le_of_lt beyond)

theorem actions_stoppedAfter (result : GameResult Player Action) (turns : Nat) :
    (result.stoppedAfter turns).actions = result.actions.take turns := by
  rcases Nat.lt_or_ge turns result.turns with beyond | within
  · rw [stoppedAfter_of_lt beyond]
  · rw [stoppedAfter_of_le within, List.take_of_length_le within]

end GameResult

variable [Worded Player] [Worded Action] {game : Game Position Player Action}
  {seats : Player → Option (Seat Memory Position Action)} {maxTurns : Option Int} {limit : Int}
  {remaining : Nat} {record next : Record Position Player Action} {before after : Effort Memory}

/-- Whether a game without a turn limit goes on from a record, turn by turn, until it is over with
a result. -/
inductive Finishes (game : Game Position Player Action)
    (seats : Player → Option (Seat Memory Position Action)) :
    Record Position Player Action → Effort Memory → GameResult Player Action → Prop where
  | done {record : Record Position Player Action} {before : Effort Memory}
      {winner : Option Player} (ended : game.status record.position = .over winner) :
      Finishes game seats record before ⟨winner, record.actions.toList, true⟩
  | turn {record next : Record Position Player Action} {before after : Effort Memory}
      {result : GameResult Player Action} (turn : TakesTurn game seats none record before next after)
      (finishes : Finishes game seats next after result) : Finishes game seats record before result

namespace TakesTurn

theorem exists_turn (turn : TakesTurn game seats maxTurns record before next after) :
    ∃ player, game.status record.position = .turn player := by
  cases turn with
  | intro turn => exact ⟨_, turn⟩

theorem actions_eq (turn : TakesTurn game seats maxTurns record before next after) :
    ∃ entry, next.actions = record.actions.push entry := by
  cases turn
  exact ⟨_, rfl⟩

/-- Before the limit is reached, a turn is taken as if there were none. -/
theorem limited (turn : TakesTurn game seats none record before next after)
    (fewer : (record.actions.size : Int) < limit) :
    TakesTurn game seats (some limit) record before next after := by
  cases turn with
  | intro turn _ seated chosen played =>
      refine .intro turn ?_ seated chosen played
      rintro _ ⟨⟩
      exact fewer

/-- A game goes on with the turn that is taken. -/
theorem playOn_eq (turn : TakesTurn game seats maxTurns record before next after) :
    playOn game seats maxTurns (remaining + 1) record before =
      playOn game seats maxTurns remaining next after := by
  cases turn with
  | intro turn allowed seated chosen played =>
      have unlimited : maxTurns.filter (fun limit => decide (limit ≤ (record.actions.size : Int))) =
          none := by
        simpa only [Option.filter_eq_none_iff, decide_eq_true_eq, Int.not_le] using allowed
      rw [SearchM.Yields] at chosen
      rw [playOn]
      simp only [turn, unlimited, seated, chosen, played]
      rfl

end TakesTurn

theorem playOn_of_over {winner : Option Player}
    (ended : game.status record.position = .over winner) :
    (playOn game seats maxTurns remaining record before).result =
      .ok ⟨winner, record.actions.toList, true⟩ := by
  rw [playOn]
  simp only [ended]

/-- A game that is still running at the limit is stopped. -/
theorem playOn_of_limit {player : Player} (turn : game.status record.position = .turn player)
    (reached : limit ≤ record.actions.size) :
    (playOn game seats (some limit) remaining record before).result =
      .ok ⟨none, record.actions.toList, false⟩ := by
  have limited : (some limit).filter (fun limit => decide (limit ≤ (record.actions.size : Int))) =
      some limit := by
    simpa using reached
  rw [playOn]
  simp only [turn, limited]

/-- A game without a limit that returns a result has finished with it. -/
theorem finishes_of_playOn
    (returned : (playOn game seats none remaining record before).result = .ok result) :
    Finishes game seats record before result := by
  induction remaining using Nat.strongRecOn generalizing record before with
  | ind remaining ih =>
      rcases playOn_cases game seats none remaining record before with
        ⟨outcome, last, played, ends⟩ | ⟨fewer, next, last, rfl, turn, played⟩ |
        ⟨player, -, -, -, played⟩
      · rw [played] at returned
        subst returned
        cases ends with
        | complete ended => exact .done ended
        | limit _ limited => cases limited
      · rw [played] at returned
        exact .turn turn (ih fewer (Nat.lt_succ_self fewer) returned)
      · rw [played] at returned
        cases returned

namespace Finishes

theorem completed (finishes : Finishes game seats record before result) :
    result.completed = true := by
  induction finishes with
  | done => rfl
  | turn _ _ ih => exact ih

/-- What has been played stays at the front of the result. -/
theorem isPrefix (finishes : Finishes game seats record before result) :
    record.actions.toList <+: result.actions := by
  induction finishes with
  | done => exact List.prefix_rfl
  | turn turn _ ih =>
      rcases turn.actions_eq with ⟨entry, actions_eq⟩
      rw [actions_eq, Array.toList_push] at ih
      exact (List.prefix_append _ [entry]).trans ih

/-- A game that is stopped before it finishes has come to the first actions of its result. -/
theorem playOn_limited (finishes : Finishes game seats record before result)
    (left : record.actions.size + remaining = limit.toNat) :
    (playOn game seats (some limit) remaining record before).result =
      .ok (result.stoppedAfter limit.toNat) := by
  induction finishes generalizing remaining with
  | @done record before winner ended =>
      have within : record.actions.toList.length ≤ limit.toNat := by
        rw [Array.length_toList]
        omega
      rw [playOn_of_over ended, GameResult.stoppedAfter_of_le within]
  | @turn record next before after result turn finishes ih =>
      rcases turn.exists_turn with ⟨player, running⟩
      rcases turn.actions_eq with ⟨entry, actions_eq⟩
      cases remaining with
      | zero =>
          have longer : limit.toNat < result.turns := by
            have le := finishes.isPrefix.length_le
            rw [actions_eq, Array.length_toList, Array.size_push] at le
            exact Nat.lt_of_lt_of_le (by omega) le
          have taken := List.prefix_iff_eq_take.mp (Finishes.turn turn finishes).isPrefix
          rw [Array.length_toList, show record.actions.size = limit.toNat from left] at taken
          rw [playOn_of_limit running (by omega), GameResult.stoppedAfter_of_lt longer, taken]
      | succ remaining =>
          rw [(turn.limited (by omega)).playOn_eq]
          apply ih
          rw [actions_eq, Array.size_push]
          omega

end Finishes

/-- A turn limit only truncates. A game without a limit that returns a result has finished with it;
and however many turns a game takes to finish, under a limit it comes to the first of these turns,
as many as the limit allows. The result is that of the whole game exactly if all turns are allowed;
else the game is unfinished and has no winner. -/
theorem playGame_limited (game : Game Position Player Action)
    (seats : Player → Option (Seat Memory Position Action)) (start : Position)
    (effort : Effort Memory) :
    (∀ result, (playGame game seats none start effort).result = .ok result →
      Finishes game seats ⟨start, #[]⟩ effort result) ∧
    ∀ (result : GameResult Player Action) (limit : Int), 0 ≤ limit →
      Finishes game seats ⟨start, #[]⟩ effort result →
      ∃ cut, (playGame game seats (some limit) start effort).result = .ok cut ∧
        cut.actions = result.actions.take limit.toNat ∧ (cut.turns : Int) = min limit result.turns ∧
        ((cut.completed = true ∧ cut.winner = result.winner) ↔ (result.turns : Int) ≤ limit) ∧
        (limit < result.turns → cut.completed = false ∧ cut.winner = none) := by
  refine ⟨fun result returned => finishes_of_playOn returned, ?_⟩
  intro result limit nonneg finishes
  have played : (playGame game seats (some limit) start effort).result =
      .ok (result.stoppedAfter limit.toNat) := finishes.playOn_limited (Nat.zero_add limit.toNat)
  have actions_eq := result.actions_stoppedAfter limit.toNat
  refine ⟨result.stoppedAfter limit.toNat, played, actions_eq, ?_, ?_, ?_⟩
  · rw [GameResult.turns, actions_eq, List.length_take, GameResult.turns]
    omega
  · rcases Nat.lt_or_ge limit.toNat result.turns with beyond | within
    · rw [GameResult.stoppedAfter_of_lt beyond]
      have exceeded : ¬(result.turns : Int) ≤ limit := by omega
      simp [exceeded]
    · rw [GameResult.stoppedAfter_of_le within]
      have allowed : (result.turns : Int) ≤ limit := by omega
      simp [allowed, finishes.completed]
  · intro beyond
    rw [GameResult.stoppedAfter_of_lt (by omega)]
    exact ⟨rfl, rfl⟩

/-- Three turns of Nim by players who remember what they have not played yet, and only two of
them. -/
theorem playGame_limited_nim :
    let start : Nim.Position :=
      ⟨[2, 1], .one, none, false, List.cons_ne_nil 2 [1], Nim.Position.unlimited_pos⟩
    let seats := seatOf [(Nim.Player.one, rosterSeat Nim.game (fun _ => .never) "first" 0),
      (Nim.Player.two, rosterSeat Nim.game (fun _ => .never) "second" 1)]
    let effort : Effort (Roster Nim.Position Nim.Player Nim.Action) :=
      .start #[.scripted [⟨0, 1⟩, ⟨1, 1⟩], .scripted [⟨0, 1⟩]]
    let result : GameResult Nim.Player Nim.Action :=
      ⟨some .one, [(.one, ⟨0, 1⟩), (.two, ⟨0, 1⟩), (.one, ⟨1, 1⟩)], true⟩
    (playGame Nim.game seats none start effort).result = .ok result ∧ (0 : Int) ≤ 2 ∧
      Finishes Nim.game seats ⟨start, #[]⟩ effort result ∧
      ∃ cut, (playGame Nim.game seats (some 2) start effort).result = .ok cut ∧
        cut.actions = [(.one, ⟨0, 1⟩), (.two, ⟨0, 1⟩)] ∧ (cut.turns : Int) = min 2 3 ∧
        ((cut.completed = true ∧ cut.winner = some .one) ↔ (3 : Int) ≤ 2) ∧
        ((2 : Int) < 3 → cut.completed = false ∧ cut.winner = none) := by
  intro start seats effort result
  have returned : (playGame Nim.game seats none start effort).result = .ok result := by rfl
  have limited := playGame_limited Nim.game seats start effort
  have finishes := limited.1 result returned
  exact ⟨returned, by omega, finishes, limited.2 result 2 (by omega) finishes⟩

end GameSearch
