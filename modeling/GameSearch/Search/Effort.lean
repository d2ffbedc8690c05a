import GameSearch.Deadline
import GameSearch.Evaluator
import GameSearch.Note

/-!
# The effort of a search

A search scores positions, asks its deadline and reports on its progress. `SearchM` carries the count of deadline
checks, the evaluator's memory and the notes; they survive a fault.
-/

namespace GameSearch

/-- What a search has spent and reported. -/
structure Effort (Memory : Type) where
  /-- How often the deadline was asked or, in a game, how many deadlines were set. -/
  checks : Nat
  /-- What the evaluator or, in a game, the players remember. -/
  memory : Memory
  /-- The notes, in order. -/
  notes : Array Note

/-- Nothing spent yet. -/
def Effort.start {Memory : Type} (memory : Memory) : Effort Memory := ⟨0, memory, #[]⟩

/-- A computation that spends effort and may fail. -/
abbrev SearchM (Memory : Type) := ExceptT Fault (StateM (Effort Memory))

namespace SearchM

variable {Memory Position Player α : Type}

/-- Asks the deadline whether it has passed. -/
def expired (deadline : Deadline) : SearchM Memory Bool := fun effort =>
  (.ok (deadline.passed (effort.checks + 1)), { effort with checks := effort.checks + 1 })

/-- Scores a position. -/
def evaluate (evaluator : Evaluator Memory Position Player) (position : Position)
    (side : Player) : SearchM Memory Number := fun effort =>
  let (result, memory) := evaluator.score position side effort.memory
  (result, { effort with memory })

/-- Tells the evaluator that a search starts. -/
def startSearch (evaluator : Evaluator Memory Position Player) : SearchM Memory Unit :=
  fun effort => (.ok (), { effort with memory := evaluator.startSearch effort.memory })

/-- Reports on progress. -/
def note (level : Level) (topic : Topic) (text : String) : SearchM Memory Unit :=
  fun effort => (.ok (), { effort with notes := effort.notes.push ⟨level, topic, text⟩ })

end SearchM

end GameSearch
