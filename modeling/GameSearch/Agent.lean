import GameSearch.Gauge
import GameSearch.Strategy

/-!
# Agents

An agent chooses an action for the player whose turn it is, within a deadline. Most agents search with a strategy
and a gauge; the gauge is the only thing that changes from one choice to the next. An agent may also
follow a script.
-/

namespace GameSearch

/-- A player of games. -/
inductive Agent (Position Player Action : Type) where
  /-- Searches with a strategy and a gauge. An omniscient agent may see what is hidden from players. -/
  | searcher (name : String) (strategy : Strategy) (gauge : Gauge Position Player)
      (omniscient : Bool)
  /-- Plays the given actions one after another, whatever the position. -/
  | scripted (actions : List Action)

namespace Agent

variable {Position Player Action : Type}

def name : Agent Position Player Action → String
  | .searcher name .. => name
  | .scripted _ => "Scripted"

/-- Whether an agent may see hidden information. -/
def isOmniscient : Agent Position Player Action → Bool
  | .searcher _ _ _ omniscient => omniscient
  | .scripted _ => false

def strategyName? : Agent Position Player Action → Except Fault (Option String)
  | .searcher _ strategy _ _ => some <$> strategy.name
  | .scripted _ => .ok none

/-- An agent with its parts. -/
def describe : Agent Position Player Action → Except Fault String
  | .searcher name strategy gauge omniscient => do
    return "AgentData(name=" ++ Text.quoted name ++ ", strategy=" ++ (← strategy.name) ++
      ", evaluator=" ++ gauge.name ++ ", omniscient=" ++ (if omniscient then "True" else "False") ++
      ")"
  | .scripted actions => .ok ("Scripted(" ++ toString actions.length ++ ")")

variable [DecidableEq Player] [DecidableEq Action] [Worded Player] [Worded Action]

/-- Chooses an action with a strategy and an evaluator, for the player whose turn it is. -/
def pickWith {Memory : Type} (name : String) (strategy : Strategy)
    (game : Game Position Player Action) (evaluator : Evaluator Memory Position Player)
    (deadline : Deadline) (position : Position) : SearchM Memory Action :=
  match game.status position with
  | .over winner => throw (.gameOver name (Worded.optional winner))
  | .turn player => do
    let stuck := Fault.noLegalAction name (Worded.plain player)
    if (game.firstLegal position player).isNone then throw stuck
    match ← strategy.pick game evaluator deadline player position with
    | none => throw stuck
    | some action =>
      SearchM.note .debug .agent
        (name ++ " picked " ++ Worded.literal action ++ " for " ++ Worded.plain player)
      return action

/-- Chooses an action. The agent afterwards and its notes come with the choice or the fault. -/
def choose (agent : Agent Position Player Action) (game : Game Position Player Action)
    (deadline : Deadline) (position : Position) :
    Except Fault Action × Agent Position Player Action × Array Note :=
  match agent with
  | .searcher name strategy gauge omniscient =>
    let (result, effort) :=
      pickWith name strategy game (Gauge.evaluator game) deadline position (.start gauge)
    (result, .searcher name strategy effort.memory omniscient, effort.notes)
  | .scripted [] => (.error .scriptEnded, .scripted [], #[])
  | .scripted (action :: actions) => (.ok action, .scripted actions, #[])

end Agent

end GameSearch
