import GameSearch.Proofs.Contest.Functional
import GameSearch.Proofs.Contest.RoundRobin

/-!
# Tournaments and matches agree

A tournament and a match between two agents are played by loops of their own, with seats and wins
booked in different ways. If both agents go by the position, every game of theirs goes as the rules
and their choices settle, whoever else plays in the tournament. So the matchup and the match come to
the same counts.
-/

namespace GameSearch

open Config (TournamentSpec)

/-- Whether a matchup and a tally tell the same. -/
structure Matchup.Agrees (matchup : Matchup) (tally : Tally) : Prop where
  wins_eq : matchup.wins = tally.firstWins
  draws_eq : matchup.draws = tally.draws
  losses_eq : matchup.losses = tally.secondWins

section

variable {Memory Position Player Action : Type} [DecidableEq Player] [Worded Player] [Worded Action]
  {game : Game Position Player Action} {pairing : Pairing Memory Position Player Action}
  {start : Position} {games : Int} {remaining number : Nat} {tally : Tally}
  {effort after : Effort Memory}

/-- After a game that returns, a match goes on with the next one. -/
theorem Pairing.playFrom_succ_returns {result : GameResult Player Action}
    {condition : MatchResult Player Action → Effort Memory → Prop}
    (played : (pairing.playNumber game start number effort).result = .ok result)
    (continued : ∀ notes, (pairing.playFrom game start games remaining (number + 1)
      (tally.count (Verdict.ofWinner result.winner (pairing.seating number).1
        (pairing.seating number).2))).Returns
      { (pairing.playNumber game start number effort).effort with notes }
      fun rest after => condition { rest with games := result :: rest.games } after) :
    (pairing.playFrom game start games (remaining + 1) number tally).Returns effort condition := by
  rw [playFrom]
  refine SearchM.returns_bind.mpr
    ⟨result, (pairing.playNumber game start number effort).effort, Prod.ext played rfl, ?_⟩
  refine SearchM.returns_bind.mpr ⟨(), _, rfl, ?_⟩
  refine SearchM.returns_bind.mpr ((continued _).mono ?_)
  intro rest after holds
  exact SearchM.returns_pure.mpr holds

end

namespace Tournament

variable {spec : TournamentSpec} {deadlines otherDeadlines : Deadlines} {entropies : Entropies}
  {clock : Clock} {start : Nim.Position}
  {first second : Entrant} {matchup : Matchup} {tally : Tally}
  {valid otherValid kept otherKept : Nim.NimAgent → Prop}
  {choice otherChoice : Nim.Position → Except Fault Nim.Action}

/-- Both ways to book a game count it alike. -/
theorem agrees_countGame (agrees : matchup.Agrees tally) (seat : Nim.Player)
    (winner : Option Nim.Player) :
    (countGame matchup seat winner).Agrees
      (tally.count (Verdict.ofWinner winner seat seat.opponent)) := by
  rcases agrees with ⟨wins_eq, draws_eq, losses_eq⟩
  unfold countGame Verdict.ofWinner
  split
  · exact ⟨congrArg (· + 1) wins_eq, draws_eq, losses_eq⟩
  · split
    · exact ⟨wins_eq, draws_eq, congrArg (· + 1) losses_eq⟩
    · exact ⟨wins_eq, congrArg (· + 1) draws_eq, losses_eq⟩

/-- A match of Nim between the first two agents of a roster, who swap seats every other game. -/
def rivals (deadlines : Deadlines) (name otherName : String) (maxTurns : Option Int) :
    Pairing NimRoster Nim.Position Nim.Player Nim.Action where
  first := rosterSeat Nim.game deadlines name 0
  second := rosterSeat Nim.game deadlines otherName 1
  players := (.one, .two)
  alternate := true
  maxTurns := maxTurns

theorem seating_rivals {name otherName : String} {maxTurns : Option Int} (number : Nat) :
    (rivals deadlines name otherName maxTurns).seating number =
      (firstSeat number, (firstSeat number).opponent) := by
  unfold Pairing.seating rivals firstSeat
  rcases Nat.mod_two_eq_zero_or_one number with even | odd
  · rw [even]
    rfl
  · rw [odd]
    rfl

/-- A game of the tournament that returns goes as the two choices settle, and leaves both agents in
their classes. -/
theorem outcome_of_playGame (go : Agent.GoBy Nim.game deadlines valid choice)
    (otherGo : Agent.GoBy Nim.game deadlines otherValid otherChoice) {number : Nat}
    {winner : Option Nim.Player} {before after : Effort NimRoster}
    (holds : before.memory.Holds first.index valid)
    (otherHolds : before.memory.Holds second.index otherValid)
    (played : (playGame spec deadlines start first second number).Yields before winner after) :
    (∃ result, Nim.game.outcome [(firstSeat number, choice),
        ((firstSeat number).opponent, otherChoice)] spec.maxTurns start = .ok result ∧
        result.winner = winner) ∧
      after.memory.Holds first.index valid ∧ after.memory.Holds second.index otherValid := by
  rcases exists_of_playGame played with ⟨result, returned, rfl, rfl⟩
  rcases playGame_rosterSeats go otherGo (firstSeat number) (firstSeat number).opponent holds
    otherHolds with ⟨result_eq, still, otherStill⟩
  exact ⟨⟨result, result_eq.symm.trans returned, rfl⟩, still, otherStill⟩

theorem playNumber_rivals (again : Agent.GoBy Nim.game otherDeadlines kept choice)
    (otherAgain : Agent.GoBy Nim.game otherDeadlines otherKept otherChoice)
    {name otherName : String} {maxTurns : Option Int} (number : Nat) {effort : Effort NimRoster}
    (sits : effort.memory.Holds 0 kept) (otherSits : effort.memory.Holds 1 otherKept) :
    let played := (rivals otherDeadlines name otherName maxTurns).playNumber Nim.game start number
      effort
    played.result = Nim.game.outcome [(firstSeat number, choice),
        ((firstSeat number).opponent, otherChoice)] maxTurns start ∧
      played.effort.memory.Holds 0 kept ∧ played.effort.memory.Holds 1 otherKept := by
  intro played
  simp only [played, Pairing.playNumber, seating_rivals]
  exact playGame_rosterSeats again otherAgain (firstSeat number) (firstSeat number).opponent sits
    otherSits

/-- The match comes to the counts of the matchup, from any game on. -/
theorem playFrom_agrees (go : Agent.GoBy Nim.game deadlines valid choice)
    (otherGo : Agent.GoBy Nim.game deadlines otherValid otherChoice)
    (again : Agent.GoBy Nim.game otherDeadlines kept choice)
    (otherAgain : Agent.GoBy Nim.game otherDeadlines otherKept otherChoice)
    {name otherName : String} {games : Int} {remaining number : Nat} {final : Matchup}
    {before after effort : Effort NimRoster} (agrees : matchup.Agrees tally)
    (holds : before.memory.Holds first.index valid)
    (otherHolds : before.memory.Holds second.index otherValid)
    (sits : effort.memory.Holds 0 kept) (otherSits : effort.memory.Holds 1 otherKept)
    (ran : (playGames spec deadlines start first second remaining number matchup).Yields before final
      after) :
    ((rivals otherDeadlines name otherName spec.maxTurns).playFrom Nim.game start games remaining
      number tally).Returns effort fun result _ => final.Agrees result.tally := by
  induction remaining generalizing number matchup tally before effort with
  | zero =>
      rcases SearchM.yields_pure.mp ran with ⟨rfl, -⟩
      exact SearchM.returns_pure.mpr agrees
  | succ remaining ih =>
      rw [playGames] at ran
      rcases SearchM.yields_bind.mp ran with ⟨winner, between, played, rest⟩
      rcases outcome_of_playGame go otherGo holds otherHolds played with
        ⟨⟨result, outcome, rfl⟩, still, otherStill⟩
      rcases playNumber_rivals again otherAgain number sits otherSits with
        ⟨result_eq, sitsOn, otherSitsOn⟩
      rw [outcome] at result_eq
      apply Pairing.playFrom_succ_returns result_eq
      intro notes
      rw [seating_rivals]
      exact ih (agrees_countGame agrees (firstSeat number) result.winner) still otherStill sitsOn
        otherSitsOn rest

/-- Whoever meets in a matchup, an agent that goes by the position stays in its class. -/
theorem keeps_playMatchup (go : Agent.GoBy Nim.game deadlines valid choice) (index : Nat)
    (pair : Entrant × Entrant) :
    (playMatchup spec deadlines start pair).Keeps (·.Holds index valid) := by
  rcases pair with ⟨first, second⟩
  have keeps_playGame (number : Nat) :
      (playGame spec deadlines start first second number).Keeps (·.Holds index valid) := by
    intro effort holds
    apply playGame_keeps_holds go _ holds
    simp
  have keeps_playGames (remaining number : Nat) (matchup : Matchup) :
      (playGames spec deadlines start first second remaining number matchup).Keeps
        (·.Holds index valid) := by
    induction remaining generalizing number matchup with
    | zero => exact SearchM.keeps_pure _
    | succ remaining ih => exact (keeps_playGame number).bind fun _ => ih _ _
  refine SearchM.Keeps.bind (keeps_playGames _ _ _) ?_
  intro matchup
  exact SearchM.Keeps.bind (SearchM.keeps_note _ _ _) fun _ => SearchM.keeps_pure _

variable {gauges : Nim.GaugeTable} {results : Results}
  {registered : Registry Nim.Position Nim.Player Nim.Action} {low high : Nat}
  {name otherName : String} {agent otherAgent : Nim.NimAgent}

/-- The matchup of two agents comes from games that start with either agent in its class, whoever
else has played before. -/
theorem exists_games_of_run (registry_eq : registry spec gauges entropies = .ok registered)
    (built : spec.game.build = .ok start) (returned : (run spec gauges entropies clock).1 = .ok results)
    (earlier : low < high) (at_low : registered.entries[low]? = some (name, agent))
    (at_high : registered.entries[high]? = some (otherName, otherAgent))
    (go : Agent.GoBy Nim.game (clock spec.moveTime) valid choice)
    (otherGo : Agent.GoBy Nim.game (clock spec.moveTime) otherValid otherChoice)
    (fit : valid agent) (otherFit : otherValid otherAgent) :
    ∃ matchup before after, results.matchup? name otherName = some matchup ∧
      before.memory.Holds low valid ∧ before.memory.Holds high otherValid ∧
      (playGames spec (clock spec.moveTime) start ⟨name, agent.name, low⟩
        ⟨otherName, otherAgent.name, high⟩ spec.gamesPerMatchup.toNat 0
        ⟨name, otherName, 0, 0, 0⟩).Yields before matchup after := by
  rcases exists_of_run returned with
    ⟨_, _, before, after, registry_eq', built', memory_eq, ran, -⟩
  cases registry_eq.symm.trans registry_eq'
  cases built.symm.trans built'
  have holds : before.memory.Holds low valid ∧ before.memory.Holds high otherValid := by
    rw [memory_eq]
    exact ⟨⟨agent, by simp [at_low], fit⟩, ⟨otherAgent, by simp [at_high], otherFit⟩⟩
  have keeps (pair : Entrant × Entrant) : (playMatchup spec (clock spec.moveTime) start pair).Keeps
      fun roster => roster.Holds low valid ∧ roster.Holds high otherValid :=
    (keeps_playMatchup go low pair).and (keeps_playMatchup otherGo high pair)
  have paired := mem_pairs_of_lt earlier (getElem?_entrants at_low) (getElem?_entrants at_high)
  rcases exists_right_of_forall₂ (SearchM.forall₂_of_mapM keeps ran holds) paired with
    ⟨matchup, mem, between, later, still, played⟩
  rcases yields_playMatchup played with ⟨last, _, counted, -⟩
  have names := names_playGames counted
  have found := (roundRobin_of_run returned).1.matchup?_eq mem
  rw [names.1, names.2] at found
  exact ⟨matchup, between, last, found, still.1, still.2, counted⟩

/-- The tournament and the match agree. Whenever a tournament returns results, the match between two
of its agents that go by the position returns too, with the same starting position, number of games
and turn limit, and it counts the same wins, draws and losses as their matchup. -/
theorem matchup_eq_match (registry_eq : registry spec gauges entropies = .ok registered)
    (built : spec.game.build = .ok start) (returned : (run spec gauges entropies clock).1 = .ok results)
    (earlier : low < high) (at_low : registered.entries[low]? = some (name, agent))
    (at_high : registered.entries[high]? = some (otherName, otherAgent))
    (chooses : agent.ChoosesBy Nim.game (clock spec.moveTime) choice)
    (otherChooses : otherAgent.ChoosesBy Nim.game (clock spec.moveTime) otherChoice)
    (again : agent.ChoosesBy Nim.game otherDeadlines choice)
    (otherAgain : otherAgent.ChoosesBy Nim.game otherDeadlines otherChoice) :
    ∃ matchup result after, results.matchup? name otherName = some matchup ∧
      ((rivals otherDeadlines agent.name otherAgent.name spec.maxTurns).play Nim.game start
        spec.gamesPerMatchup).Yields (.start #[agent, otherAgent]) result after ∧
      matchup.wins = result.tally.firstWins ∧ matchup.draws = result.tally.draws ∧
      matchup.losses = result.tally.secondWins := by
  rcases chooses with ⟨valid, fit, go⟩
  rcases otherChooses with ⟨otherValid, otherFit, otherGo⟩
  rcases again with ⟨kept, keptFit, goAgain⟩
  rcases otherAgain with ⟨otherKept, otherKeptFit, otherGoAgain⟩
  rcases exists_games_of_run registry_eq built returned earlier at_low at_high go otherGo fit otherFit
    with ⟨matchup, before, after, found, holds, otherHolds, played⟩
  have start : Matchup.Agrees ⟨name, otherName, 0, 0, 0⟩ ⟨spec.gamesPerMatchup, 0, 0, 0⟩ :=
    ⟨rfl, rfl, rfl⟩
  have sits : Roster.Holds #[agent, otherAgent] 0 kept := ⟨agent, rfl, keptFit⟩
  have otherSits : Roster.Holds #[agent, otherAgent] 1 otherKept := ⟨otherAgent, rfl, otherKeptFit⟩
  have matched : ((rivals otherDeadlines agent.name otherAgent.name spec.maxTurns).play Nim.game _
      spec.gamesPerMatchup).Returns (.start #[agent, otherAgent]) fun result _ =>
        matchup.Agrees result.tally :=
    playFrom_agrees go otherGo goAgain otherGoAgain start holds otherHolds sits otherSits played
  rcases matched with ⟨result, after, matched, agrees⟩
  exact ⟨matchup, result, after, found, matched, agrees.wins_eq, agrees.draws_eq, agrees.losses_eq⟩

/-- Three games of Nim between two greedy agents, each stopped after three turns. -/
def greedySpec : TournamentSpec :=
  ⟨[⟨"sums", .singleLevel, "nim_sum", false⟩, ⟨"ends", .singleLevel, "win_loss", false⟩], 3, 1,
    some 3, ⟨[1, 1, 2], none, false⟩⟩

/-- One game is stopped after three turns, at a draw, and the agent that counts wins both others. -/
def greedyResults : Results := ⟨[⟨"sums", "ends", 2, 1, 0⟩], ["sums", "ends"]⟩

/-- Generators that are all alike. -/
def plainEntropies : Entropies := fun _ _ => .ofSeed 0

/-- A clock that stands still. -/
def stillClock : Clock := fun _ _ => .never

theorem run_greedySpec :
    (run greedySpec Nim.gauges plainEntropies stillClock).1 = .ok greedyResults := by
  have evaluated : (run greedySpec Nim.gauges plainEntropies stillClock).1.toOption =
      some greedyResults := by
    decide +kernel
  cases outcome : (run greedySpec Nim.gauges plainEntropies stillClock).1 with
  | error fault => simp [outcome, Except.toOption] at evaluated
  | ok results =>
      rw [outcome] at evaluated
      rw [Option.some.inj evaluated]

theorem matchup_eq_match_greedy :
    let sums : Nim.NimAgent := .searcher "sums" .singleLevel Nim.nimSum false
    let ends : Nim.NimAgent := .searcher "ends" .singleLevel Nim.winLoss false
    let registered : Registry Nim.Position Nim.Player Nim.Action :=
      ⟨[("sums", sums), ("ends", ends)], by decide⟩
    let start : Nim.Position := ⟨[1, 1, 2], .one, none, false, by simp, by simp⟩
    let deadlines : Deadlines := stillClock greedySpec.moveTime
    let choice := fun (agent : Nim.NimAgent) position =>
      (agent.choose Nim.game .never position).1
    registry greedySpec Nim.gauges plainEntropies = .ok registered ∧
      greedySpec.game.build = .ok start ∧
      (run greedySpec Nim.gauges plainEntropies stillClock).1 = .ok greedyResults ∧
      registered.entries[0]? = some ("sums", sums) ∧
      registered.entries[1]? = some ("ends", ends) ∧
      sums.ChoosesBy Nim.game deadlines (choice sums) ∧
      ends.ChoosesBy Nim.game deadlines (choice ends) ∧
      ∃ matchup result after, greedyResults.matchup? "sums" "ends" = some matchup ∧
        ((rivals deadlines sums.name ends.name greedySpec.maxTurns).play Nim.game start
          greedySpec.gamesPerMatchup).Yields (.start #[sums, ends]) result after ∧
        matchup.wins = result.tally.firstWins ∧ matchup.draws = result.tally.draws ∧
        matchup.losses = result.tally.secondWins := by
  intro sums ends registered start deadlines choice
  have registry_eq : registry greedySpec Nim.gauges plainEntropies = .ok registered := by rfl
  have built : greedySpec.game.build = .ok start := by rfl
  have sums_chooses : sums.ChoosesBy Nim.game deadlines (choice sums) :=
    Agent.choosesBy_of_steady (.rule _ _) Nim.game .never _ _ _
  have ends_chooses : ends.ChoosesBy Nim.game deadlines (choice ends) :=
    Agent.choosesBy_of_steady (.rule _ _) Nim.game .never _ _ _
  exact ⟨registry_eq, built, run_greedySpec, rfl, rfl, sums_chooses, ends_chooses,
    matchup_eq_match registry_eq built run_greedySpec Nat.one_pos rfl rfl sums_chooses ends_chooses
      sums_chooses ends_chooses⟩

end Tournament

end GameSearch
