import GameSearch.Agent.Registry
import GameSearch.Contest.Play
import GameSearch.Nim.Describe
import GameSearch.Nim.Typed

/-!
# Human players of Nim

A human is shown the board and types actions. Human players and agents meet at a table, which
remembers the agents as they are and what passes between the program and its user.
-/

namespace GameSearch.Nim

/-- Agents, and the dialogue with the humans among the players. -/
structure Table where
  agents : Roster Position Player Action
  dialogue : Dialogue

/-- The name of every human player. -/
def humanName : String := "HUMAN"

/-- Shows the board and asks for an action. -/
def askHuman (position : Position) (dialogue : Dialogue) : Except Fault Action × Dialogue :=
  match position.board with
  | .error fault => (.error fault, dialogue)
  | .ok board => ask position dialogue.lines (dialogue.shown ++ board ++ "\n")

/-- The seat of a human. A human has no deadline. -/
def humanSeat : Seat Table Position Action where
  name := humanName
  choose position := fun effort =>
    let (result, dialogue) := askHuman position effort.memory.dialogue
    (result, { effort with memory := { effort.memory with dialogue } })

/-- The seat of agent number `index`. -/
def agentSeat (deadlines : Deadlines) (name : String) (index : Nat) : Seat Table Position Action :=
  (rosterSeat game deadlines name index).within Table.agents
    fun table agents => { table with agents }

/-- Somebody who may sit down at a table. -/
inductive Guest where
  | human
  | agent (agent : Agent Position Player Action)

namespace Guest

/-- The word for a human among the names of agents. -/
def humanWord : String := "human"

/-- The guest of a name: a human or a reference agent. -/
def ofName (registry : Registry Position Player Action) (name : String) : Except Fault Guest :=
  if name = humanWord then .ok .human else (registry.lookup name).map .agent

/-- The name that a guest goes by. -/
def name : Guest → String
  | .human => humanName
  | .agent player => player.name

end Guest

end GameSearch.Nim
