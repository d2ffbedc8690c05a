import GameSearch.Config.Tournament
import GameSearch.Contest.Match
import GameSearch.Contest.Standings

/-!
# Tournaments

In a tournament every two agents meet, in the order in which they are named, and play the configured number of
games. The agent named first moves first in every other game, beginning with the first one.
-/

namespace GameSearch

open Config (TournamentSpec AgentSpec)

/-- All pairs of two places in a list, in order. -/
def pairs {α : Type} : List α → List (α × α)
  | [] => []
  | first :: rest => rest.map (fun second => (first, second)) ++ pairs rest

/-- What tournaments of Nim remember: the agents as they are. -/
abbrev NimRoster := Roster Nim.Position Nim.Player Nim.Action

/-- A named agent and its number in the roster. -/
structure Entrant where
  name : String
  /-- The name the agent itself goes by. -/
  title : String
  index : Nat

namespace Tournament

/-- What the system gives to the gauges of the agents, by number. -/
abbrev Entropies := Nat → Random.Entropy

/-- Registers all agents in order. -/
def registry (spec : TournamentSpec) (gauges : Nim.GaugeTable) (entropies : Entropies) :
    Except Fault (Registry Nim.Position Nim.Player Nim.Action) :=
  spec.agents.foldlM (fun registry agent =>
    agent.register gauges (entropies registry.entries.length) registry) .empty

/-- Counts a game for the agent that had the given seat. -/
def countGame (matchup : Matchup) (firstSeat : Nim.Player) (winner : Option Nim.Player) :
    Matchup :=
  if winner = some firstSeat then { matchup with wins := matchup.wins + 1 }
  else if winner = some firstSeat.opponent then { matchup with losses := matchup.losses + 1 }
  else { matchup with draws := matchup.draws + 1 }

/-- The first agent's seat in a game of the given number. -/
def firstSeat (number : Nat) : Nim.Player := if number % 2 = 0 then .one else .two

/-- Plays one game between two entrants and gives the winner. -/
def playGame (spec : TournamentSpec) (deadlines : Deadlines) (start : Nim.Position)
    (first second : Entrant) (number : Nat) : SearchM NimRoster (Option Nim.Player) :=
  fun effort =>
    let seat (entrant : Entrant) := rosterSeat Nim.game deadlines entrant.title entrant.index
    let firstSeat := firstSeat number
    let played := GameSearch.playGame Nim.game
      (seatOf [(firstSeat, seat first), (firstSeat.opponent, seat second)]) spec.maxTurns start
      effort
    (played.result.map (·.winner), played.effort)

/-- Plays games number `number`, `number + 1`, …, `remaining` in all. -/
def playGames (spec : TournamentSpec) (deadlines : Deadlines) (start : Nim.Position)
    (first second : Entrant) :
    (remaining number : Nat) → Matchup → SearchM NimRoster Matchup
  | 0, _, matchup => return matchup
  | remaining + 1, number, matchup => do
    let winner ← playGame spec deadlines start first second number
    playGames spec deadlines start first second remaining (number + 1)
      (countGame matchup (firstSeat number) winner)

/-- Plays all games between two entrants. -/
def playMatchup (spec : TournamentSpec) (deadlines : Deadlines) (start : Nim.Position)
    (pair : Entrant × Entrant) : SearchM NimRoster Matchup := do
  let (first, second) := pair
  let matchup ← playGames spec deadlines start first second spec.gamesPerMatchup.toNat 0
    ⟨first.name, second.name, 0, 0, 0⟩
  SearchM.note .info .tournament
    (first.name ++ " vs " ++ second.name ++ ": " ++ matchup.cell)
  return matchup

/-- The registered agents with their numbers. -/
def entrants (registry : Registry Nim.Position Nim.Player Nim.Action) : List Entrant :=
  registry.entries.zipIdx.map fun entry => ⟨entry.1.1, entry.1.2.name, entry.2⟩

/-- Plays a tournament between registered agents. -/
def playAll (spec : TournamentSpec) (deadlines : Deadlines) (start : Nim.Position)
    (registry : Registry Nim.Position Nim.Player Nim.Action) : SearchM NimRoster Results := do
  let pairs := pairs (entrants registry)
  SearchM.note .info .tournament
    ("Running " ++ toString (pairs.length * spec.gamesPerMatchup) ++ " games (" ++
      toString pairs.length ++ " matchups) between " ++ ", ".intercalate registry.names)
  let matchups ← pairs.mapM (playMatchup spec deadlines start)
  return ⟨matchups, registry.names⟩

/-- Plays a tournament. The notes come with the results or the fault. -/
def run (spec : TournamentSpec) (gauges : Nim.GaugeTable) (entropies : Entropies) (clock : Clock) :
    Except Fault Results × Array Note :=
  match registry spec gauges entropies, spec.game.build with
  | .error fault, _ => (.error fault, #[])
  | .ok _, .error fault => (.error fault, #[])
  | .ok registry, .ok start =>
    let agents := (registry.entries.map (·.2)).toArray
    let (result, effort) :=
      (playAll spec (clock spec.moveTime) start registry).run.run (.start agents)
    (result, effort.notes)

end Tournament

end GameSearch
