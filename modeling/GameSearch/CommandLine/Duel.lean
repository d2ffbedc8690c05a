import GameSearch.CommandLine.Outcome
import GameSearch.Decimal.Typed
import GameSearch.Nim.Agents
import GameSearch.Nim.Human

/-!
# One game of Nim

The program lets two players play a game of Nim. Players are reference agents or humans, who type their actions.
Afterwards it shows the result and, if asked to, every action beside the best ones.
-/

namespace GameSearch.CommandLine.Duel

open Nim (Guest Player Position Table)

/-- How much is shown. -/
inductive Verbosity where
  | nothing
  | result
  | actions
  deriving DecidableEq, Repr

def Verbosity.ofWord? (word : String) : Option Verbosity :=
  if word = "none" then some .nothing
  else if word = "match-outcomes" then some .result
  else if word = "actions" then some .actions
  else none

/-- What the program is asked to do. -/
structure Order where
  first : String
  second : String
  piles : List Int
  maxTake : Option Int
  misere : Bool
  /-- Seconds for a move. -/
  moveTime : Float
  verbosity : Verbosity

def switches : List Switch :=
  helpOptions ++
    [⟨"--piles", .several, fun text => (Numeral.typedInteger? text).isSome⟩,
     ⟨"--max-take", .one, fun text => (Numeral.typedInteger? text).isSome⟩,
     ⟨"--misere", .none, fun _ => true⟩,
     ⟨"--move-time", .one, fun text => (Numeral.typedDouble? text).isSome⟩,
     ⟨"--verbosity", .one, fun text => (Verbosity.ofWord? text).isSome⟩]

def Order.ofArguments (arguments : List String) : Except Stop Order := do
  let given ← understand 2 switches arguments
  match given.positional with
  | [first, second] =>
    return {
      first, second
      piles := ((given.values? "--piles").map (·.filterMap Numeral.typedInteger?)).getD [3, 4, 5]
      maxTake := (given.value? "--max-take").bind Numeral.typedInteger?
      misere := (given.values? "--misere").isSome
      moveTime := ((given.value? "--move-time").bind Numeral.typedDouble?).getD 1
      verbosity := ((given.value? "--verbosity").bind Verbosity.ofWord?).getD .result }
  | _ => throw .misused

/-- The name of the agent that plays by the closed form. -/
def perfectName : String := "perfect"

/-- The two players by name. -/
structure Guests where
  first : Guest
  second : Guest

def Guests.seated (guests : Guests) : Player → Guest
  | .one => guests.first
  | .two => guests.second

/-- The players of an order, or the account of a name that nobody goes by. -/
def Order.guests (order : Order) (entropy : Player → Random.Entropy) : Except Fault Guests := do
  let first ← Guest.ofName (Nim.registry (entropy .one)) order.first
  let second ← Guest.ofName (Nim.registry (entropy .two)) order.second
  return ⟨first, second⟩

/-- The seats at the table. -/
def Guests.seats (guests : Guests) (deadlines : Deadlines) (player : Player) :
    Option (Seat Table Position Nim.Action) :=
  let index := match player with
    | .one => 0
    | .two => 1
  match guests.seated player with
  | .human => some Nim.humanSeat
  | .agent agent => some (Nim.agentSeat deadlines agent.name index)

/-- The agents of the players, with one in the place of every human. -/
def Guests.agents (guests : Guests) : Roster Position Player Nim.Action :=
  let agentOf : Guest → Nim.NimAgent
    | .human => .scripted []
    | .agent agent => agent
  #[agentOf guests.first, agentOf guests.second]

/-- The lines of a text, each of which may end with a line feed. -/
def linesOf (text : String) : List String :=
  let lines := text.splitOn "\n"
  if lines.getLast? = some "" then lines.dropLast else lines

/-- Shows the actions of a game, each with the position before it and the best ones. -/
def replay (guests : Guests) : Position → List (Player × Nim.Action) → Except Fault String
  | _, [] => .ok ""
  | position, (player, action) :: actions => do
    let board ← position.board
    let taken ← action.describe
    let optimal ← position.describeOptimal
    let next ← Nim.game.play position player action
    let others ← replay guests next actions
    return board ++ "\n  " ++ (guests.seated player).name ++ " plays " ++ taken ++ "; optimal: " ++
      optimal ++ "\n" ++ others

/-- The line that tells who won. -/
def resultLine (guests : Guests) (winner : Player) (turns : Nat) : String :=
  (guests.seated winner).name ++ " (" ++ winner.name ++ ") wins after " ++ toString turns ++
    " turns\n"

/-- What is shown of a finished game. -/
def report (order : Order) (guests : Guests) (start : Position)
    (result : GameResult Player Nim.Action) : Except Fault String := do
  let replayed ←
    if order.verbosity = .actions then replay guests start result.actions else pure ""
  match result.winner with
  | some winner =>
    if order.verbosity = .nothing then return replayed
    else return replayed ++ resultLine guests winner result.turns
  | none => return replayed

/-- Plays the game that is asked for. -/
def play (order : Order) (guests : Guests) (clock : Clock) (start : Position) (input : String) :
    Outcome :=
  let table : Table := ⟨guests.agents, ⟨linesOf input, ""⟩⟩
  let seats := guests.seats (clock order.moveTime)
  let played := playGame Nim.game seats none start (.start table)
  let shown := played.effort.memory.dialogue.shown
  let notes := played.effort.notes.toList
  match played.result with
  | .error (.illegalAction account) =>
    ⟨.exit Outcome.refusal, shown, notes ++ [⟨.error, .nimTable, "Illegal action: " ++ account⟩]⟩
  | .error fault => ⟨.fault fault, shown, notes⟩
  | .ok result =>
    match report order guests start result with
    | .ok text => ⟨.exit Outcome.success, shown ++ text, notes⟩
    | .error fault => ⟨.fault fault, shown, notes⟩

/-- Runs the program. -/
def run (arguments : List String) (input : String) (entropy : Player → Random.Entropy)
    (clock : Clock) : Outcome :=
  match Order.ofArguments arguments with
  | .error stop => .stopped stop
  | .ok order =>
    match order.guests entropy with
    | .error fault => .refused .nimTable (fault.message ++ " (or 'human')")
    | .ok guests =>
      match Position.ofSizes order.piles .one order.maxTake order.misere with
      | .error fault => .failed fault
      | .ok start =>
        if (order.first = perfectName ∨ order.second = perfectName) ∧
            start.hasClosedForm = false then
          .refused .nimTable ("Agent " ++ Text.quoted perfectName ++
            " cannot play misère Nim with --max-take")
        else play order guests clock start input

end GameSearch.CommandLine.Duel
