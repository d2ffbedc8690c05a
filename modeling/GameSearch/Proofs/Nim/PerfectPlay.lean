import GameSearch.Nim.Agents
import GameSearch.Proofs.Agent.Choice
import GameSearch.Proofs.Contest.Run
import GameSearch.Proofs.Nim.ClosedForm

/-!
# Playing by the closed form

The closed form gives every position to one of the players. Whoever is to move in a position that is
theirs can keep it, and whoever is to move in a position that is not theirs cannot help leaving it
to the opponent. The score by the closed form tells the two kinds of moves apart, so a greedy agent
who goes by it wins every won game.
-/

namespace GameSearch.Nim

namespace Position

variable {position next : Position} {player : Player}

/-- Whether a player wins a position by the verdict of the closed form. -/
def IsWonFor (position : Position) (player : Player) : Prop :=
  position.verdict = decide (position.turn = player)

instance (position : Position) (player : Player) : Decidable (position.IsWonFor player) :=
  inferInstanceAs (Decidable (_ = _))

theorem isWonFor_iff_isWinning (closed : position.hasClosedForm = true) :
    position.IsWonFor player ↔ position.isWinning = .ok (decide (position.turn = player)) := by
  rw [isWinning_eq_verdict closed, IsWonFor, Except.ok.injEq]

/-- A finished game has been won by the player to whom the closed form gives it. -/
theorem status_eq_over_iff (ended : position.isOver = true) :
    position.status = .over (some player) ↔ position.IsWonFor player := by
  rw [status_of_over ended, IsWonFor, verdict_of_over ended]
  cases position.misere <;> cases position.turn <;> cases player <;> decide

/-- The winner to move can keep the position won. -/
theorem IsWonFor.exists_leadsTo (won : position.IsWonFor position.turn)
    (closed : position.hasClosedForm = true) (running : position.isOver = false) :
    ∃ next, position.LeadsTo next ∧ next.IsWonFor position.turn := by
  have wins : position.verdict = true := by simpa [IsWonFor] using won
  rcases (verdict_iff closed running).mp wins with ⟨next, leads, loses⟩
  refine ⟨next, leads, ?_⟩
  rw [IsWonFor, loses, leads.turn_eq, decide_eq_false (Player.opponent_ne position.turn)]

/-- The loser to move cannot turn the game. -/
theorem IsWonFor.of_leadsTo (won : position.IsWonFor position.turn.opponent)
    (closed : position.hasClosedForm = true) (leads : position.LeadsTo next) :
    next.IsWonFor position.turn.opponent := by
  have loses : position.verdict = false := by
    simpa [IsWonFor, (Player.opponent_ne position.turn).symm] using won
  rw [IsWonFor, leads.turn_eq, decide_eq_true rfl]
  by_contra lost
  have wins := (verdict_iff closed leads.isOver_eq_false).mpr
    ⟨next, leads, Bool.eq_false_iff.mpr lost⟩
  rw [wins] at loses
  cases loses

end Position

open Position

variable {position : Position} {player : Player}

theorem perfectScore_eq (closed : position.hasClosedForm = true) (side : Player) :
    perfectScore position side = .ok (if position.IsWonFor side then 1 else -1) := by
  cases ended : position.isOver with
  | true =>
      have decides : (some (if position.misere then position.turn else position.turn.opponent) =
          some side) ↔ position.IsWonFor side := by
        rw [← status_eq_over_iff ended, status_of_over ended, Status.over.injEq]
      simp only [perfectScore, outcome, status_of_over ended, decides]
  | false =>
      simp only [perfectScore, outcome, status_of_running ended, isWinning_eq_verdict closed]
      rfl

theorem exists_play_of_bestOf (won : position.IsWonFor position.turn)
    (closed : position.hasClosedForm = true) (running : position.isOver = false) {action : Action}
    (best : (Tracker.bestOf .greatest
      (fun next => .int (if next.IsWonFor position.turn then 1 else -1))
      (game.successors position position.turn)).action = some action) :
    ∃ next, game.play position position.turn action = .ok next ∧
      next.IsWonFor position.turn := by
  rcases won.exists_leadsTo closed running with ⟨next, ⟨winning, played⟩, kept⟩
  have mem : (winning, next) ∈ game.successors position position.turn :=
    Game.mem_successors.mpr (move_eq_ok.mpr played)
  have integers : ∀ next : Position,
      (Number.int (if next.IsWonFor position.turn then 1 else -1)).IsInteger :=
    fun _ => ⟨_, rfl⟩
  rcases Tracker.exists_bestOf_eq .greatest integers (List.ne_nil_of_mem mem) with
    ⟨entry, entry_mem, best_eq, most⟩
  rw [best_eq, Option.some.injEq] at best
  refine ⟨entry.2, best ▸ Game.mem_successors.mp entry_mem, ?_⟩
  by_contra lost
  have least := most (winning, next) mem
  simp only [kept, lost, if_true, if_false, Aim.rank_greatest_int_le] at least
  omega

/-- In a won position an agent who goes by the closed form keeps the position won, and it stays as
it is. -/
theorem exists_choose_of_isWonFor (won : position.IsWonFor position.turn)
    (closed : position.hasClosedForm = true) (running : position.isOver = false)
    (deadline : Deadline) (name : String) (omniscient : Bool) :
    ∃ action notes next,
      (Agent.searcher name .singleLevel perfect omniscient).choose game deadline position =
          (.ok action, .searcher name .singleLevel perfect omniscient, notes) ∧
        game.play position position.turn action = .ok next ∧ next.IsWonFor position.turn := by
  have scores : ∀ action next, game.play position position.turn action = .ok next →
      Number.int <$> perfectScore next position.turn =
        .ok (.int (if next.IsWonFor position.turn then 1 else -1)) := by
    intro action next played
    rw [perfectScore_eq ((leadsTo_of_play played).hasClosedForm_eq.trans closed)]
    rfl
  rcases Agent.choose_singleLevel name "NimPerfectEvaluator"
    (fun position side => Number.int <$> perfectScore position side) omniscient
    (status_of_running running) (legal_ne_nil running) scores with ⟨action, notes, chosen, best⟩
  rcases exists_play_of_bestOf won closed running best with ⟨next, played, kept⟩
  exact ⟨action, notes, next, chosen, played, kept⟩

section Game

variable {Memory : Type}
  {seats : Player → Option (Seat (Roster Position Player Action × Memory) Position Action)}
  {opponent : Seat Memory Position Action} {deadlines : Deadlines} {seatName agentName : String}
  {index : Nat} {omniscient : Bool}

/-- What a player whose seat goes by the closed form keeps up: the position is won for the player,
and the agent stays as it is. -/
structure Winning (player : Player) (index : Nat) (agent : NimAgent)
    (record : Record Position Player Action) (memory : Roster Position Player Action × Memory) :
    Prop where
  closed : record.position.hasClosedForm = true
  won : record.position.IsWonFor player
  present : memory.1[index]? = some agent

theorem upholds_winning
    (self : seats player = some ((rosterSeat game deadlines seatName index).within Prod.fst
      fun memory roster => (roster, memory.2)))
    (other : seats player.opponent = some (opponent.within Prod.snd
      fun memory remembered => (memory.1, remembered)))
    (legal : opponent.PlaysLegally game player.opponent) :
    Upholds game seats
      (Winning player index (.searcher agentName .singleLevel perfect omniscient)) := by
  rintro record mover effort turn ⟨closed, won, present⟩
  rcases status_eq_turn_iff.mp turn with ⟨running, rfl⟩
  by_cases acting : record.position.turn = player
  · subst acting
    rcases exists_choose_of_isWonFor won closed running (deadlines effort.checks)
      agentName omniscient with
      ⟨action, notes, next, chosen, played, kept⟩
    refine ⟨_, self, Seat.within_returns (rosterSeat_returns present chosen) ?_⟩
    rintro _ after ⟨rfl, same⟩
    refine ⟨next, played, (leadsTo_of_play played).hasClosedForm_eq.trans closed, kept, ?_⟩
    simpa only [same] using present
  · have facing : player = record.position.turn.opponent :=
      Player.eq_opponent_of_ne (Ne.symm acting)
    subst facing
    rw [Player.opponent_opponent] at other legal
    refine ⟨_, other, Seat.within_returns (legal record.position _ turn) ?_⟩
    intro action after mem
    rcases (game.play_isOk _ _ _).mpr mem with ⟨next, played⟩
    have leads := leadsTo_of_play played
    exact ⟨next, played, leads.hasClosedForm_eq.trans closed, won.of_leadsTo closed leads, present⟩

/-- The agent who goes by the closed form never loses a won game. Whatever legal actions the
opponent plays, a game that the closed form gives to the agent comes to an end and is won by the
agent. -/
theorem playGame_winner_eq_perfect {start : Position}
    {effort : Effort (Roster Position Player Action × Memory)}
    (self : seats player = some ((rosterSeat game deadlines seatName index).within Prod.fst
      fun memory roster => (roster, memory.2)))
    (present : effort.memory.1[index]? = some (.searcher agentName .singleLevel perfect omniscient))
    (other : seats player.opponent = some (opponent.within Prod.snd
      fun memory remembered => (memory.1, remembered)))
    (legal : opponent.PlaysLegally game player.opponent)
    (closed : start.hasClosedForm = true)
    (won : start.isWinning = .ok (decide (start.turn = player))) :
    ∃ actions, (playGame game seats none start effort).result =
      .ok ⟨some player, actions, true⟩ := by
  have winning : Winning player index (.searcher agentName .singleLevel perfect omniscient)
      ⟨start, #[]⟩ effort.memory := ⟨closed, (isWonFor_iff_isWinning closed).mpr won, present⟩
  rcases playGame_ends (upholds_winning self other legal) rfl winning with
    ⟨winner, last, after, played, status, kept⟩
  have won : game.status last.position = .over (some player) :=
    (status_eq_over_iff (isOver_of_status status)).mpr kept.won
  rw [status, Status.over.injEq] at won
  exact ⟨last.actions.toList, by rw [played, won]⟩

/-- A seat that takes the first legal action of a player. -/
def firstSeat (player : Player) : Seat Unit Position Action where
  name := "FIRST"
  choose position := pure ((game.firstLegal position player).getD ⟨0, 0⟩)

theorem firstSeat_playsLegally (player : Player) : (firstSeat player).PlaysLegally game player := by
  intro position effort turn
  apply SearchM.returns_pure.mpr
  cases legal : game.firstLegal position player with
  | none =>
      rcases status_eq_turn_iff.mp turn with ⟨running, rfl⟩
      exact absurd (Game.firstLegal_eq_none.mp legal) (legal_ne_nil running)
  | some action => exact Game.mem_legal_of_firstLegal legal

/-- With one pile of two and one of one, the player to move wins misère Nim against the first legal
action. -/
theorem playGame_winner_eq_perfect_misere :
    let start : Position := ⟨[2, 1], .one, none, true, by simp, by simp⟩
    let seats := seatOf
      [(Player.one, (rosterSeat game (fun _ => .never) "PERFECT" 0).within Prod.fst
        fun (memory : Roster Position Player Action × Unit) roster => (roster, memory.2)),
       (Player.two, (firstSeat .two).within Prod.snd fun memory _ => memory)]
    start.hasClosedForm = true ∧ start.isWinning = .ok true ∧
      ∃ actions, (playGame game seats none start (.start (#[perfectAgent], ()))).result =
        .ok ⟨some .one, actions, true⟩ := by
  intro start seats
  have wins : start.isWinning = .ok (decide (start.turn = Player.one)) := by
    simp [start, isWinning, hasClosedForm, Position.nimSum, grundy]
  exact ⟨rfl, wins, playGame_winner_eq_perfect rfl rfl rfl (firstSeat_playsLegally .two) rfl wins⟩

end Game

end GameSearch.Nim
