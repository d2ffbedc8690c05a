import GameSearch.Proofs.Contest.Completion
import GameSearch.Proofs.Contest.Points
import GameSearch.Proofs.Contest.TurnLimit
import GameSearch.Proofs.Nim.Ending

/-!
# What a tournament conserves

No game of a tournament is lost or counted twice. `Bouts` tells how two entrants play their games,
one after another; the matchup counts each of these for one of them or as a draw, and the points of
all agents together come to the games of all matchups.
-/

namespace GameSearch

open Config (TournamentSpec Reader)

namespace Tournament

/-- A game of two entrants: the seat that the first of them had, and the result. -/
structure Bout where
  seat : Nim.Player
  result : GameResult Nim.Player Nim.Action

namespace Bout

/-- Whether the first entrant won. -/
def won (bout : Bout) : Bool := bout.result.winner = some bout.seat

/-- Whether nobody won. -/
def drawn (bout : Bout) : Bool := bout.result.winner = none

/-- Whether the second entrant won. -/
def lost (bout : Bout) : Bool := bout.result.winner = some bout.seat.opponent

/-- Counts a game in a matchup. -/
def count (bout : Bout) (matchup : Matchup) : Matchup :=
  countGame matchup bout.seat bout.result.winner

end Bout

variable {spec : TournamentSpec} {deadlines : Deadlines} {start : Nim.Position}
  {first second : Entrant} {before after : Effort NimRoster} {bout : Bout} {bouts : List Bout} {matchup final : Matchup}
  {results : Results} {gauges : Nim.GaugeTable}
  {entropies : Entropies} {clock : Clock}

/-- The games that two entrants play one after another, each with the agents as the game before has
left them. -/
inductive Bouts (spec : TournamentSpec) (deadlines : Deadlines) (start : Nim.Position)
    (first second : Entrant) : Effort NimRoster → List Bout → Effort NimRoster → Prop where
  | nil {effort : Effort NimRoster} : Bouts spec deadlines start first second effort [] effort
  | cons {before after : Effort NimRoster} {bout : Bout} {bouts : List Bout}
      (played : (seated spec deadlines start first second bout.seat before).result =
        .ok bout.result)
      (rest : Bouts spec deadlines start first second
        (seated spec deadlines start first second bout.seat before).effort bouts after) :
      Bouts spec deadlines start first second before (bout :: bouts) after

/-- Whether a matchup counts the given games, and these are as many as configured, with the first
agent as the first to move in half of them, rounded up. -/
structure Accounts (spec : TournamentSpec) (start : Nim.Position) (bouts : List Bout)
    (matchup : Matchup) : Prop where
  length_eq : (bouts.length : Int) = spec.gamesPerMatchup
  first_eq : (bouts.countP (·.seat = start.turn) : Int) = (spec.gamesPerMatchup + 1) / 2
  wins_eq : matchup.wins = bouts.countP Bout.won
  draws_eq : matchup.draws = bouts.countP Bout.drawn
  losses_eq : matchup.losses = bouts.countP Bout.lost

/-- The matchups of pairs of entrants, one after another, each played by the agents as the matchup
before has left them. -/
inductive Rounds (spec : TournamentSpec) (deadlines : Deadlines) (start : Nim.Position) :
    Effort NimRoster → List (Entrant × Entrant) → List Matchup → Effort NimRoster → Prop where
  | nil {effort : Effort NimRoster} : Rounds spec deadlines start effort [] [] effort
  | cons {before between after : Effort NimRoster} {notes : Array Note} {first second : Entrant}
      {pairs : List (Entrant × Entrant)} {bouts : List Bout} {matchup : Matchup}
      {matchups : List Matchup} (first_eq : matchup.first = first.name)
      (second_eq : matchup.second = second.name)
      (played : Bouts spec deadlines start first second before bouts between)
      (accounts : Accounts spec start bouts matchup)
      (rest : Rounds spec deadlines start { between with notes } pairs matchups after) :
      Rounds spec deadlines start before ((first, second) :: pairs) (matchup :: matchups) after

/-! ### Counting -/

/-- A game counts for the one of its outcomes that it had. -/
theorem Bout.count_eq (bout : Bout) (matchup : Matchup) :
    bout.count matchup = { matchup with
      wins := matchup.wins + if bout.won then 1 else 0
      draws := matchup.draws + if bout.drawn then 1 else 0
      losses := matchup.losses + if bout.lost then 1 else 0 } := by
  rcases bout with ⟨seat, winner, actions, completed⟩
  unfold count countGame won drawn lost
  cases winner with
  | none => simp
  | some winner => cases seat <;> cases winner <;> simp [Nim.Player.opponent]

theorem foldl_count (bouts : List Bout) (matchup : Matchup) :
    bouts.foldl (fun matchup bout => bout.count matchup) matchup = { matchup with
      wins := matchup.wins + bouts.countP Bout.won
      draws := matchup.draws + bouts.countP Bout.drawn
      losses := matchup.losses + bouts.countP Bout.lost } := by
  have cons_eq (outcome : Bout → Bool) (bout : Bout) (bouts : List Bout) (counted : Int) :
      counted + (if outcome bout then 1 else 0) + bouts.countP outcome =
        counted + ((bout :: bouts).countP outcome : Nat) := by
    rw [List.countP_cons]
    push_cast
    ring
  induction bouts generalizing matchup with
  | nil => simp
  | cons bout bouts ih => rw [List.foldl_cons, ih, bout.count_eq, cons_eq, cons_eq, cons_eq]

theorem games_countGame (matchup : Matchup) (seat : Nim.Player) (winner : Option Nim.Player) :
    (countGame matchup seat winner).games = matchup.games + 1 := by
  unfold countGame Matchup.games
  split
  · ring
  · split <;> ring

/-- No game is lost. -/
theorem games_foldl_count (bouts : List Bout) (matchup : Matchup) :
    (bouts.foldl (fun matchup bout => bout.count matchup) matchup).games =
      matchup.games + bouts.length := by
  induction bouts generalizing matchup with
  | nil => simp
  | cons bout bouts ih =>
      rw [List.foldl_cons, ih, Bout.count, games_countGame, List.length_cons]
      push_cast
      ring

/-- Taking turns, the first of two agents moves first in half of their games, rounded up. -/
theorem countP_firstSeat (games : Nat) :
    ((List.range games).map firstSeat).countP (· = .one) = (games + 1) / 2 := by
  induction games with
  | zero => rfl
  | succ games ih =>
      rw [List.range_succ, List.map_append, List.countP_append, ih, List.map_singleton,
        List.countP_singleton, firstSeat]
      rcases Nat.mod_two_eq_zero_or_one games with even | odd
      · simp only [even, if_true, decide_true]
        omega
      · simp [odd]
        omega

/-! ### Playing -/

/-- The games of a matchup are played one after another, and all of them are counted. -/
theorem exists_bouts {remaining number : Nat}
    (ran : (playGames spec deadlines start first second remaining number matchup).Yields
      before final after) :
    ∃ bouts, Bouts spec deadlines start first second before bouts after ∧
      bouts.map (·.seat) = (List.range' number remaining).map firstSeat ∧
      final = bouts.foldl (fun matchup bout => bout.count matchup) matchup := by
  induction remaining generalizing number matchup before with
  | zero =>
      rcases SearchM.yields_pure.mp ran with ⟨rfl, rfl⟩
      exact ⟨[], .nil, rfl, rfl⟩
  | succ remaining ih =>
      rw [playGames] at ran
      rcases SearchM.yields_bind.mp ran with ⟨winner, between, played, rest⟩
      rcases exists_of_playGame played with ⟨result, outcome, rfl, rfl⟩
      rcases ih rest with ⟨bouts, chain, seats_eq, final_eq⟩
      refine ⟨⟨firstSeat number, result⟩ :: bouts, .cons outcome chain, ?_, final_eq⟩
      rw [List.map_cons, seats_eq, List.range'_succ, List.map_cons]

/-- Without a turn limit every game of Nim has a winner. -/
theorem winner_ne_none {seats : Nim.Player → Option (Seat NimRoster Nim.Position Nim.Action)}
    {record : Record Nim.Position Nim.Player Nim.Action}
    {result : GameResult Nim.Player Nim.Action}
    (finishes : Finishes Nim.game seats record before result) : result.winner ≠ none := by
  induction finishes with
  | turn _ _ ih => exact ih
  | @done record _ winner ended =>
      change record.position.status = .over winner at ended
      unfold Nim.Position.status at ended
      split at ended
      · cases ended
        simp
      · cases ended

/-- Without a turn limit no game is drawn. -/
theorem Bouts.not_drawn (chain : Bouts spec deadlines start first second before bouts after)
    (unlimited : spec.maxTurns = none) : ∀ bout ∈ bouts, ¬bout.drawn := by
  induction chain with
  | nil => simp
  | cons played _ ih =>
      rw [List.forall_mem_cons]
      refine ⟨?_, ih⟩
      rw [seated, unlimited] at played
      simpa [Bout.drawn] using winner_ne_none (finishes_of_playOn played)

theorem turn_of_build (built : spec.game.build = .ok start) : start.turn = .one :=
  congrArg Nim.Layout.turn (Nim.Position.ofSizes_eq_ok.mp built)

/-- All games of a matchup are played and counted. -/
theorem exists_accounts (nonneg : 0 ≤ spec.gamesPerMatchup) (turn : start.turn = .one)
    {name otherName : String}
    (ran : (playGames spec deadlines start first second spec.gamesPerMatchup.toNat 0
      ⟨name, otherName, 0, 0, 0⟩).Yields before matchup after) :
    ∃ bouts, Bouts spec deadlines start first second before bouts after ∧
      Accounts spec start bouts matchup := by
  rcases exists_bouts ran with ⟨bouts, chain, seats_eq, final_eq⟩
  have length_eq : bouts.length = spec.gamesPerMatchup.toNat := by
    have same := congrArg List.length seats_eq
    simpa using same
  have first_eq : bouts.countP (·.seat = start.turn) = (spec.gamesPerMatchup.toNat + 1) / 2 := by
    have placed := countP_firstSeat spec.gamesPerMatchup.toNat
    rw [List.range_eq_range', ← seats_eq, List.countP_map] at placed
    rw [turn]
    exact placed
  have counted := foldl_count bouts ⟨name, otherName, 0, 0, 0⟩
  rw [← final_eq] at counted
  refine ⟨bouts, chain, ?_, ?_, ?_, ?_, ?_⟩
  · rw [length_eq, Int.toNat_of_nonneg nonneg]
  · omega
  · rw [counted]
    exact Int.zero_add _
  · rw [counted]
    exact Int.zero_add _
  · rw [counted]
    exact Int.zero_add _

/-- All matchups are played, in order. -/
theorem rounds_of_mapM (nonneg : 0 ≤ spec.gamesPerMatchup) (turn : start.turn = .one)
    {pairs : List (Entrant × Entrant)} {matchups : List Matchup}
    (ran : (pairs.mapM (playMatchup spec deadlines start)).Yields before matchups
      after) : Rounds spec deadlines start before pairs matchups after := by
  induction pairs generalizing matchups before with
  | nil =>
      rw [List.mapM_nil] at ran
      rcases SearchM.yields_pure.mp ran with ⟨rfl, rfl⟩
      exact .nil
  | cons pair pairs ih =>
      rcases pair with ⟨first, second⟩
      rw [List.mapM_cons] at ran
      rcases SearchM.yields_bind.mp ran with ⟨matchup, between, here, others⟩
      rcases SearchM.yields_bind.mp others with ⟨rest, last, there, done⟩
      rcases SearchM.yields_pure.mp done with ⟨rfl, rfl⟩
      rcases yields_playMatchup here with ⟨played, notes, counted, rfl⟩
      have names := names_playGames counted
      rcases exists_accounts nonneg turn counted with ⟨bouts, chain, accounts⟩
      exact .cons names.1 names.2 chain accounts (ih there)

/-! ### What the accounts tell -/

namespace Accounts

theorem counted (accounts : Accounts spec start bouts matchup) : matchup.Counted := by
  rcases accounts with ⟨-, -, wins_eq, draws_eq, losses_eq⟩
  refine ⟨?_, ?_, ?_⟩
  · rw [wins_eq]
    exact Int.natCast_nonneg _
  · rw [draws_eq]
    exact Int.natCast_nonneg _
  · rw [losses_eq]
    exact Int.natCast_nonneg _

/-- No game is lost. -/
theorem games_eq (accounts : Accounts spec start bouts matchup) :
    matchup.games = spec.gamesPerMatchup := by
  have all := games_foldl_count bouts ⟨"", "", 0, 0, 0⟩
  rw [foldl_count, accounts.length_eq] at all
  rw [Matchup.games, accounts.wins_eq, accounts.draws_eq, accounts.losses_eq]
  simpa [Matchup.games] using all

/-- Without a turn limit there are no draws. -/
theorem draws_eq_zero (accounts : Accounts spec start bouts matchup)
    (chain : Bouts spec deadlines start first second before bouts after) (unlimited : spec.maxTurns = none) :
    matchup.draws = 0 := by
  rw [accounts.draws_eq, List.countP_eq_zero.mpr (chain.not_drawn unlimited), Nat.cast_zero]

end Accounts

theorem Rounds.exists_bouts {pairs : List (Entrant × Entrant)} {matchups : List Matchup}
    (rounds : Rounds spec deadlines start before pairs matchups after) :
    ∀ matchup ∈ matchups, ∃ first second between bouts last,
      Bouts spec deadlines start first second between bouts last ∧ Accounts spec start bouts matchup := by
  induction rounds with
  | nil => simp
  | cons _ _ played accounts _ ih =>
      rw [List.forall_mem_cons]
      exact ⟨⟨_, _, _, _, _, played, accounts⟩, ih⟩

/-- A tournament conserves its games. The results name all agents in order and hold one matchup for
every two of them, for which the configured number of games has been played; the agent named first
moves first in half of these, rounded up, and every game counts as a win of one agent or, which only
a turn limit brings about, as a draw. The points of all agents come to the games of all matchups,
and the doubles that stand for points are exact as long as the games can be counted in them. -/
theorem conservation {Raw : Type} {reader : Reader Raw} {raw : Raw}
    (accepted : TournamentSpec.read reader raw = .ok spec)
    (returned : (run spec gauges entropies clock).1 = .ok results) :
    results.names = spec.agents.map (·.name) ∧ results.names.Nodup ∧
    results.matchups.map (fun matchup => (matchup.first, matchup.second)) = pairs results.names ∧
    (∀ first ∈ results.names, ∀ second ∈ results.names, first ≠ second →
      (pairs results.names).count (first, second) + (pairs results.names).count (second, first) =
        1) ∧
    (∃ registered start before after, registry spec gauges entropies = .ok registered ∧
      spec.game.build = .ok start ∧ before.memory = (registered.entries.map (·.2)).toArray ∧
      Rounds spec (clock spec.moveTime) start before (pairs (entrants registered))
        results.matchups after) ∧
    (∀ matchup ∈ results.matchups,
      matchup.wins + matchup.draws + matchup.losses = spec.gamesPerMatchup ∧
        (spec.maxTurns = none → matchup.draws = 0)) ∧
    ((results.names.length - 1) * spec.gamesPerMatchup < 2 ^ 52 → ∀ name ∈ results.names,
      Extent.ofFloat (results.points name) = .finite (results.worth name)) ∧
    (results.names.map results.worth).sum =
      (pairs results.names).length * spec.gamesPerMatchup ∧
    ((pairs results.names).length * spec.gamesPerMatchup < 2 ^ 52 →
      Extent.ofFloat ((results.names.map results.points).foldl (· + ·) 0) =
        .finite ((pairs results.names).length * spec.gamesPerMatchup)) := by
  have positive := TournamentSpec.one_le_gamesPerMatchup accepted
  have nonneg : 0 ≤ spec.gamesPerMatchup := by omega
  rcases roundRobin_of_run returned with ⟨roundRobin, names_eq⟩
  rcases exists_of_run returned with
    ⟨registered, start, before, after, registry_eq, built, memory_eq, ran, -⟩
  have rounds := rounds_of_mapM nonneg (turn_of_build built) ran
  have counted : ∀ matchup ∈ results.matchups, matchup.Counted := by
    intro matchup mem
    rcases rounds.exists_bouts matchup mem with ⟨_, _, _, _, _, -, accounts⟩
    exact accounts.counted
  have games_eq : ∀ matchup ∈ results.matchups, matchup.games = spec.gamesPerMatchup := by
    intro matchup mem
    rcases rounds.exists_bouts matchup mem with ⟨_, _, _, _, _, -, accounts⟩
    exact accounts.games_eq
  have all_games : (results.met.map Matchup.games).sum =
      (pairs results.names).length * spec.gamesPerMatchup := by
    rw [roundRobin.met_eq, List.map_congr_left games_eq, ← roundRobin.paired]
    simp
  refine ⟨names_eq, roundRobin.nodup, roundRobin.paired, ?_, ?_, ?_, ?_, ?_, ?_⟩
  · intro first mem second other distinct
    exact count_pairs_add roundRobin.nodup distinct mem other
  · exact ⟨registered, start, before, after, registry_eq, built, memory_eq, rounds⟩
  · intro matchup mem
    rcases rounds.exists_bouts matchup mem with ⟨_, _, _, _, _, chain, accounts⟩
    exact ⟨accounts.games_eq, accounts.draws_eq_zero chain⟩
  · intro small name mem
    have le := Results.halves_le counted games_eq nonneg mem
    apply Results.extent_points counted
    unfold Double.wholeBound
    omega
  · rw [Results.sum_worth roundRobin.nodup, all_games]
    push_cast
    rfl
  · intro small
    have summed := Results.extent_sum_points counted roundRobin.nodup (by
      unfold Double.wholeBound
      omega)
    rw [summed, all_games]
    push_cast
    rfl

/-- Three games of Nim as a configuration describes them, with defaults for the rest. -/
def greedyValue : Config.Value :=
  .record [("agents", .list [greedyAgent "sums" "nim_sum", greedyAgent "ends" "win_loss"]),
    ("games_per_matchup", .number (.int 3)), ("max_turns", .number (.int 3)),
    ("game", .record [("piles", .list [.number (.int 1), .number (.int 1), .number (.int 2)])])]

theorem read_greedyValue : TournamentSpec.read .lax greedyValue = .ok greedySpec := by
  have agents : TournamentSpec.readAgents .lax
      (.list [greedyAgent "sums" "nim_sum", greedyAgent "ends" "win_loss"]) =
        .ok greedySpec.agents :=
    TournamentSpec.readAgents_eq_ok.mpr ⟨rfl, by decide⟩
  refine TournamentSpec.read_eq_ok.mpr ⟨_, rfl, by simp, ?_, rfl, rfl, rfl, rfl⟩
  exact Config.Entries.read_eq_ok.mpr (.inl ⟨_, rfl, agents⟩)

theorem conservation_greedy :
    TournamentSpec.read .lax greedyValue = .ok greedySpec ∧
    (run greedySpec Nim.gauges plainEntropies stillClock).1 = .ok greedyResults ∧
    greedyResults.matchups.map (fun matchup => (matchup.first, matchup.second)) =
      [("sums", "ends")] ∧
    (∃ registered start before after,
      registry greedySpec Nim.gauges plainEntropies = .ok registered ∧
      greedySpec.game.build = .ok start ∧
      before.memory = (registered.entries.map (·.2)).toArray ∧
      Rounds greedySpec (stillClock greedySpec.moveTime) start before
        (pairs (entrants registered)) [⟨"sums", "ends", 2, 1, 0⟩] after) ∧
    Extent.ofFloat (greedyResults.points "sums") = .finite (5 / 2) ∧
    Extent.ofFloat (greedyResults.points "ends") = .finite (1 / 2) ∧
    Extent.ofFloat ((greedyResults.names.map greedyResults.points).foldl (· + ·) 0) =
      .finite 3 := by
  have conserved := conservation read_greedyValue run_greedySpec
  rcases conserved with ⟨-, -, paired, -, rounds, -, exact_points, -, sum_eq⟩
  have sums := exact_points (by decide) "sums" (by decide)
  have ends := exact_points (by decide) "ends" (by decide)
  have worth_eq : greedyResults.worth "sums" = 5 / 2 ∧ greedyResults.worth "ends" = 1 / 2 := by
    decide +kernel
  have games_eq : ((pairs greedyResults.names).length * greedySpec.gamesPerMatchup : Rat) = 3 := by
    decide +kernel
  have sum := sum_eq (by decide)
  rw [worth_eq.1] at sums
  rw [worth_eq.2] at ends
  rw [games_eq] at sum
  exact ⟨read_greedyValue, run_greedySpec, paired, rounds, sums, ends, sum⟩

/-! ### Tournaments cut short -/

/-- A game is stopped if its turns are not enough to take all objects. -/
theorem winner_eq_none_of_short
    {seats : Nim.Player → Option (Seat NimRoster Nim.Position Nim.Action)} {turns : Int}
    {most : Nat} {result : GameResult Nim.Player Nim.Action} (limited : start.limit = some most)
    (short : turns.toNat * most < start.total)
    (returned : (GameSearch.playGame Nim.game seats (some turns) start before).result =
      .ok result) : result.winner = none := by
  rcases playGame_underway Nim.game seats (some turns) start before (.inl (by simp)) with
    ⟨last, underway, ends⟩
  have within := underway.size_le rfl
  have taken := (Nim.total_le_of_line limited underway.line).2
  rw [returned] at ends
  generalize (GameSearch.playGame Nim.game seats (some turns) start before).record = record
    at ends within taken
  cases ends with
  | limit => rfl
  | complete ended =>
      exfalso
      have empty : record.position.total = 0 := by
        have allTaken := Nim.Position.isOver_of_status ended
        exact List.sum_eq_zero (by simpa [Nim.Position.isOver] using allTaken)
      have fewer : record.actions.toList.length * most ≤ turns.toNat * most := by
        apply Nat.mul_le_mul_right
        rw [Array.length_toList]
        omega
      omega

theorem Bouts.drawn (chain : Bouts spec deadlines start first second before bouts after)
    {turns : Int} {most : Nat} (stopped : spec.maxTurns = some turns)
    (limited : start.limit = some most) (short : turns.toNat * most < start.total) :
    ∀ bout ∈ bouts, bout.drawn = true := by
  induction chain with
  | nil => simp
  | cons played _ ih =>
      rw [List.forall_mem_cons]
      refine ⟨?_, ih⟩
      rw [seated, stopped] at played
      simpa [Bout.drawn] using winner_eq_none_of_short limited short played

theorem Rounds.matchups_eq {pairs : List (Entrant × Entrant)} {matchups : List Matchup}
    (rounds : Rounds spec deadlines start before pairs matchups after) {turns : Int} {most : Nat}
    (stopped : spec.maxTurns = some turns) (limited : start.limit = some most)
    (short : turns.toNat * most < start.total) :
    matchups = pairs.map fun pair => ⟨pair.1.name, pair.2.name, 0, spec.gamesPerMatchup, 0⟩ := by
  induction rounds with
  | nil => rfl
  | @cons _ _ _ _ first second _ bouts matchup _ first_eq second_eq played accounts _ ih =>
      have drawn := played.drawn stopped limited short
      have draws_eq : matchup.draws = spec.gamesPerMatchup := by
        rw [accounts.draws_eq, ← accounts.length_eq, List.countP_eq_length.mpr drawn]
      have games_eq := accounts.games_eq
      have wins_nonneg := accounts.counted.wins_nonneg
      have losses_nonneg := accounts.counted.losses_nonneg
      rw [Matchup.games] at games_eq
      have wins_eq : matchup.wins = 0 := by omega
      have losses_eq : matchup.losses = 0 := by omega
      rw [List.map_cons, ← ih]
      congr 1
      calc matchup = ⟨matchup.first, matchup.second, matchup.wins, matchup.draws,
            matchup.losses⟩ := rfl
        _ = ⟨first.name, second.name, 0, spec.gamesPerMatchup, 0⟩ := by
            rw [first_eq, second_eq, wins_eq, draws_eq, losses_eq]

/-- If the turn limit leaves no time to take all objects, every game is a draw. -/
theorem matchups_of_short (positive : 1 ≤ spec.gamesPerMatchup)
    (returned : (run spec gauges entropies clock).1 = .ok results)
    (built : spec.game.build = .ok start) {turns : Int} {most : Nat}
    (stopped : spec.maxTurns = some turns) (limited : start.limit = some most)
    (short : turns.toNat * most < start.total) :
    results.matchups = (pairs results.names).map fun pair =>
      ⟨pair.1, pair.2, 0, spec.gamesPerMatchup, 0⟩ := by
  rcases exists_of_run returned with
    ⟨registered, _, before, after, registry_eq, built', -, ran, names_eq⟩
  cases built.symm.trans built'
  have rounds := rounds_of_mapM (by omega) (turn_of_build built) ran
  rw [rounds.matchups_eq stopped limited short, names_eq, ← names_entrants, pairs_map,
    List.map_map]
  rfl

/-- Four agents that play their games only up to the first turn, as a configuration describes
them. -/
def drawnValue : Config.Value :=
  .record [("agents", .list [greedyAgent "A" "win_loss", greedyAgent "B" "win_loss",
      greedyAgent "C" "win_loss", greedyAgent "D" "win_loss"]),
    ("games_per_matchup", .number (.int (2 ^ 52 - 1))), ("max_turns", .number (.int 1)),
    ("game", .record [("piles", .list [.number (.int 2)]), ("max_take", .number (.int 1))])]

def drawnSpec : TournamentSpec :=
  ⟨[⟨"A", .singleLevel, "win_loss", false⟩, ⟨"B", .singleLevel, "win_loss", false⟩,
      ⟨"C", .singleLevel, "win_loss", false⟩, ⟨"D", .singleLevel, "win_loss", false⟩],
    2 ^ 52 - 1, 1, some 1, ⟨[2], some 1, false⟩⟩

/-- All of their games are draws. -/
def drawnResults : Results :=
  ⟨(pairs ["A", "B", "C", "D"]).map fun pair => ⟨pair.1, pair.2, 0, 2 ^ 52 - 1, 0⟩,
    ["A", "B", "C", "D"]⟩

theorem read_drawnValue : TournamentSpec.read .lax drawnValue = .ok drawnSpec := by
  have agents : TournamentSpec.readAgents .lax (.list [greedyAgent "A" "win_loss",
      greedyAgent "B" "win_loss", greedyAgent "C" "win_loss", greedyAgent "D" "win_loss"]) =
        .ok drawnSpec.agents :=
    TournamentSpec.readAgents_eq_ok.mpr ⟨rfl, by decide⟩
  refine TournamentSpec.read_eq_ok.mpr ⟨_, rfl, by simp, ?_, rfl, rfl, rfl, rfl⟩
  exact Config.Entries.read_eq_ok.mpr (.inl ⟨_, rfl, agents⟩)

theorem run_drawnSpec :
    (run drawnSpec Nim.gauges plainEntropies stillClock).1 = .ok drawnResults := by
  have known : ∀ agent ∈ drawnSpec.agents, agent.evaluator ∈ Nim.gauges.map Prod.fst := by
    simp [drawnSpec, Nim.gauges]
  have scorable : Scorable drawnSpec := by
    constructor
    · simp [drawnSpec]
    · simp [drawnSpec]
  have paced : Paced drawnSpec (stillClock drawnSpec.moveTime) := by
    constructor
    · simp [drawnSpec, Config.StrategySpec.Unlimited]
    · exact fun agent _ count => .inl fun check => rfl
  have completes : ∃ results, (run drawnSpec Nim.gauges plainEntropies stillClock).1 =
      .ok results := exists_results read_drawnValue known scorable paced
  rcases completes with ⟨⟨matchups, names⟩, returned⟩
  let start : Nim.Position := ⟨[2], .one, some 1, false, by simp, by simp⟩
  have built : drawnSpec.game.build = .ok start := rfl
  have names_eq : names = ["A", "B", "C", "D"] := (roundRobin_of_run returned).2
  have matchups_eq : matchups = (pairs names).map fun pair => ⟨pair.1, pair.2, 0, 2 ^ 52 - 1, 0⟩ :=
    matchups_of_short (by decide) returned built rfl rfl (by decide)
  rw [returned, matchups_eq, names_eq]
  rfl

/-- Points count halves, which are lost beyond two to the power of 52. So, although no count goes
beyond that bound, the points of the four agents fall short of their games. -/
theorem points_ne_games_drawn :
    TournamentSpec.read .lax drawnValue = .ok drawnSpec ∧
    (run drawnSpec Nim.gauges plainEntropies stillClock).1 = .ok drawnResults ∧
    (∀ matchup ∈ drawnResults.matchups, matchup.Modest) ∧
    (∀ name ∈ drawnResults.names,
      Extent.ofFloat (drawnResults.points name) = .finite 6755399441055742) ∧
    (4 * 6755399441055742 : Rat) ≠
      (pairs drawnResults.names).length * drawnSpec.gamesPerMatchup ∧
    Extent.ofFloat ((drawnResults.names.map drawnResults.points).foldl (· + ·) 0) ≠
      .finite ((pairs drawnResults.names).length * drawnSpec.gamesPerMatchup) := by
  refine ⟨read_drawnValue, run_drawnSpec, ?_⟩
  decide +kernel

end Tournament

end GameSearch
