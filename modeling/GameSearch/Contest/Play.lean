import GameSearch.Agent

/-!
# Playing a game

A game is played from a starting position by asking the seat of the player to move for an action until the
game is over or a turn limit is reached. What the players remember from one choice to the next
is threaded through the game, and the record of the game tells, even if the game is broken off by a fault,
which position was reached and by which actions.
-/

namespace GameSearch

variable {Memory Position Player Action : Type}

/-- Somebody who chooses actions; what all players remember is shared in one memory. -/
structure Seat (Memory Position Action : Type) where
  name : String
  choose : Position → SearchM Memory Action

/-- A seat whose player remembers only a part of what all players remember. -/
def Seat.within {Whole : Type} (seat : Seat Memory Position Action) (part : Whole → Memory)
    (replace : Whole → Memory → Whole) : Seat Whole Position Action where
  name := seat.name
  choose position := fun effort =>
    let (result, inner) :=
      (seat.choose position).run.run ⟨effort.checks, part effort.memory, effort.notes⟩
    (result, ⟨inner.checks, replace effort.memory inner.memory, inner.notes⟩)

/-- A game so far: the position reached, and who played what, in order. -/
structure Record (Position Player Action : Type) where
  position : Position
  actions : Array (Player × Action)

/-- The result of a game. -/
structure GameResult (Player Action : Type) where
  /-- The winner, if the game was won. -/
  winner : Option Player
  /-- The actions in the order in which they were played. -/
  actions : List (Player × Action)
  /-- Whether the game ended by itself rather than by the turn limit. -/
  completed : Bool

/-- The number of actions played. -/
def GameResult.turns (result : GameResult Player Action) : Nat := result.actions.length

/-- The game afterwards, the effort afterwards, and the result or the fault that broke the game off. -/
structure Played (Memory Position Player Action : Type) where
  result : Except Fault (GameResult Player Action)
  record : Record Position Player Action
  effort : Effort Memory

/-- Adds a note of the game to an effort. -/
def noteGame (effort : Effort Memory) (text : String) : Effort Memory :=
  { effort with notes := effort.notes.push ⟨.debug, .game, text⟩ }

/-- Plays on, for at most `remaining` turns, unless the turn limit comes first. -/
def playOn [Worded Player] [Worded Action] (game : Game Position Player Action)
    (seats : Player → Option (Seat Memory Position Action)) (maxTurns : Option Int) :
    (remaining : Nat) → Record Position Player Action → Effort Memory →
      Played Memory Position Player Action
  | remaining, record, effort =>
    let turns := record.actions.size
    match game.status record.position with
    | .over winner =>
      ⟨.ok ⟨winner, record.actions.toList, true⟩, record,
        noteGame effort ("Game over after " ++ toString turns ++ " turns, winner " ++
          Worded.optional winner)⟩
    | .turn player =>
      match maxTurns.filter fun limit => decide (limit ≤ (turns : Int)) with
      | some limit =>
        ⟨.ok ⟨none, record.actions.toList, false⟩, record,
          noteGame effort ("Game stopped at the " ++ toString limit ++ " turn limit")⟩
      | none =>
        match remaining, seats player with
        | _, none => ⟨.error (.noAgent (Worded.plain player)), record, effort⟩
        | 0, some _ => ⟨.error .unbounded, record, effort⟩
        | remaining + 1, some seat =>
          match (seat.choose record.position).run.run effort with
          | (.error fault, effort) => ⟨.error fault, record, effort⟩
          | (.ok action, effort) =>
            match game.play record.position player action with
            | .error fault => ⟨.error fault, record, effort⟩
            | .ok next =>
              playOn game seats maxTurns remaining
                ⟨next, record.actions.push (player, action)⟩
                (noteGame effort ("Turn " ++ toString (turns + 1) ++ ": " ++
                  Worded.plain player ++ " (" ++ seat.name ++ ") played " ++
                  Worded.plain action))

/-- How many times a game asks for a turn at most; the last time the player to move may be stuck. -/
def turnBound (game : Game Position Player Action) (maxTurns : Option Int)
    (position : Position) : Nat :=
  match maxTurns with
  | some limit => limit.toNat
  | none => ((game.height position).map (· + 1)).getD Game.patience

/-- Plays a game from its starting position. -/
def playGame [Worded Player] [Worded Action] (game : Game Position Player Action)
    (seats : Player → Option (Seat Memory Position Action)) (maxTurns : Option Int)
    (start : Position) (effort : Effort Memory) : Played Memory Position Player Action :=
  playOn game seats maxTurns (turnBound game maxTurns start) ⟨start, #[]⟩ effort

/-- The agents that take part in games, by number. -/
abbrev Roster (Position Player Action : Type) := Array (Agent Position Player Action)

/-- The seat of an agent of the roster. Every choice has a deadline of its own. -/
def rosterSeat [DecidableEq Player] [DecidableEq Action] [Worded Player] [Worded Action]
    (game : Game Position Player Action) (deadlines : Deadlines) (name : String) (index : Nat) :
    Seat (Roster Position Player Action) Position Action where
  name := name
  choose position := fun effort =>
    match effort.memory[index]? with
    | none => (.error (.noAgent name), effort)
    | some agent =>
      let (result, agent, notes) := agent.choose game (deadlines effort.checks) position
      (result, {
        checks := effort.checks + 1
        memory := effort.memory.setIfInBounds index agent
        notes := effort.notes ++ notes })

/-- The seats of players to whom agents are given; of two agents for one player the last one plays. -/
def seatOf [DecidableEq Player] (seats : List (Player × Seat Memory Position Action))
    (player : Player) : Option (Seat Memory Position Action) :=
  (seats.reverse.find? fun entry => entry.1 = player).map (·.2)

end GameSearch
