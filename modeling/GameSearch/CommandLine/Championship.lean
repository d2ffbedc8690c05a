import GameSearch.CommandLine.Outcome
import GameSearch.Compose.Load
import GameSearch.Config.Scalar
import GameSearch.Contest.Tournament
import GameSearch.Decimal.Fixed
import GameSearch.Decimal.Typed
import GameSearch.Yaml.Writer

/-!
# A tournament from a configuration

The program loads the description of a tournament, plays it and shows the standings and the table of results. Options
override the number of games and the time for a move; another one shows the description first.
-/

namespace GameSearch.CommandLine.Championship

open Compose (Files)
open Config (Location Reader TournamentSpec)

/-- What the program is asked to do. -/
structure Order where
  path : String
  games : Option Int
  /-- Seconds for a move. -/
  moveTime : Option Float
  showsConfig : Bool

def switches : List Switch :=
  helpOptions ++
    [⟨"--games", .one, fun text => (Numeral.typedInteger? text).isSome⟩,
     ⟨"--move-time", .one, fun text => (Numeral.typedDouble? text).isSome⟩,
     ⟨"--show-config", .none, fun _ => true⟩]

def Order.ofArguments (arguments : List String) : Except Stop Order := do
  let given ← understand 1 switches arguments
  match given.positional with
  | [path] =>
    return {
      path
      games := (given.value? "--games").bind Numeral.typedInteger?
      moveTime := (given.value? "--move-time").bind Numeral.typedDouble?
      showsConfig := (given.values? "--show-config").isSome }
  | _ => throw .misused

def Order.overrides (order : Order) : List String :=
  (order.games.map fun games => "games_per_matchup=" ++ toString games).toList ++
    (order.moveTime.map fun seconds => "move_time=" ++ Double.text seconds).toList

/-- What the program notes before it plays. -/
def announcement (name : String) (spec : TournamentSpec) : List Note :=
  [⟨.info, .tournamentTable, "Tournament: " ++ name⟩,
   ⟨.info, .tournamentTable,
    "Agents: " ++ Text.bracketed (spec.agents.map fun agent => Text.quoted agent.name)⟩,
   ⟨.info, .tournamentTable, "Games per matchup: " ++ toString spec.gamesPerMatchup ++ ", " ++
      Double.fixed 2 spec.moveTime ++ "s per move"⟩]

def tables (results : Results) : Except Fault String := do
  let standings ← results.standingsTable
  let wins ← results.winTable
  return "\n" ++ standings ++ "\n\n" ++ wins ++ "\n"

/-- Plays a tournament after showing `shown`. -/
def play (spec : TournamentSpec) (entropies : Tournament.Entropies) (clock : Clock)
    (name shown : String) : Outcome :=
  let (results, notes) := Tournament.run spec Nim.gauges entropies clock
  let notes := announcement name spec ++ notes.toList
  match results.bind tables with
  | .ok text => ⟨.exit Outcome.success, shown ++ text, notes⟩
  | .error fault => ⟨.fault fault, shown, notes⟩

/-- Loads the description of a tournament and plays it. -/
def loadAndPlay (order : Order) (files : Files) (entropies : Tournament.Entropies) (clock : Clock)
    (location : Location) : Outcome :=
  match Compose.load files location order.overrides with
  | .error failure => ⟨.uncomposed failure, "", []⟩
  | .ok value =>
    match TournamentSpec.read Reader.lax value with
    | .error problems => ⟨.invalid problems, "", []⟩
    | .ok spec =>
      play spec entropies clock location.name
        (if order.showsConfig then Yaml.write spec.dump ++ "\n" else "")

/-- Runs the program among some files. -/
def run (arguments : List String) (files : Files) (entropies : Tournament.Entropies)
    (clock : Clock) : Outcome :=
  match Order.ofArguments arguments with
  | .error stop => .stopped stop
  | .ok order =>
    let path := Path.ofText order.path
    match path.withSuffix Compose.extension, Location.ofPath path with
    | .error fault, _ => .failed fault
    | .ok _, .error fault => .failed fault
    | .ok file, .ok location =>
      if files.hasPath file || files.hasPath path then
        loadAndPlay order files entropies clock location
      else .refused .tournamentTable ("Config file not found: " ++ order.path)

end GameSearch.CommandLine.Championship
