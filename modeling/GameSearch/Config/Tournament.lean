import GameSearch.Config.Agent

/-!
# Tournaments in a configuration

A tournament is described by its agents, the number of games that each two of them play, the time for a move, an
optional limit on turns and the starting position.
-/

namespace GameSearch.Config

/-- The description of a starting position. -/
structure GameSpec where
  piles : List Int
  maxTake : Option Int
  misere : Bool
  deriving DecidableEq, Repr

namespace GameSpec

/-- Three piles under normal play. -/
def default : GameSpec := ⟨[3, 4, 5], none, false⟩

variable {Raw : Type} (reader : Reader Raw)

/-- Reads the sizes of at least one pile. -/
def readPiles (raw : Raw) : Checked (List Int) :=
  (reader.list 1 reader.integer raw).require (·.all (0 ≤ ·)) fun sizes =>
    .valueError (Nim.negativePile sizes).message

/-- Reads a starting position. -/
def read (raw : Raw) : Checked GameSpec :=
  match reader.entries .modelType raw with
  | .error problems => .error problems
  | .ok fields =>
    let piles := fields.read "piles" (some default.piles) (readPiles reader)
    let maxTake := fields.read "max_take" (some none) (reader.optional reader.positive)
    let misere := fields.read "misere" (some false) reader.bool
    fields.close ["piles", "max_take", "misere"]
      (Checked.both (fun build misere => build misere)
        (Checked.both GameSpec.mk piles maxTake) misere)

/-- The description with all fields. -/
def dump (spec : GameSpec) : Value :=
  .record [("piles", .list (spec.piles.map fun size => .number (.int size))),
    ("max_take", .ofOptionalInt spec.maxTake), ("misere", .bool spec.misere)]

/-- The starting position described. -/
def build (spec : GameSpec) : Except Fault Nim.Position :=
  Nim.Position.ofSizes spec.piles .one spec.maxTake spec.misere

end GameSpec

/-- The description of a tournament. -/
structure TournamentSpec where
  agents : List AgentSpec
  gamesPerMatchup : Int
  /-- Seconds for a move. -/
  moveTime : Float
  maxTurns : Option Int
  game : GameSpec

namespace TournamentSpec

/-- The names that occur more than once, each once and in alphabetical order. -/
def duplicates (names : List String) : List String :=
  ((names.filter fun name => 1 < names.count name).eraseDups).mergeSort
    fun left right => !(right < left)

variable {Raw : Type} (reader : Reader Raw)

/-- Reads at least two agents with distinct names. -/
def readAgents (raw : Raw) : Checked (List AgentSpec) :=
  (reader.list 2 (AgentSpec.read reader) raw).require
    (fun agents => (duplicates (agents.map (·.name))).isEmpty)
    fun agents => .valueError ("Duplicate agent names: " ++
      Text.bracketed ((duplicates (agents.map (·.name))).map Text.quoted))

def read (raw : Raw) : Checked TournamentSpec :=
  match reader.entries .modelType raw with
  | .error problems => .error problems
  | .ok fields =>
    let agents := fields.read "agents" none (readAgents reader)
    let games := fields.read "games_per_matchup" (some 2) reader.positive
    let moveTime := fields.read "move_time" (some 1) fun raw =>
      (reader.double raw).require (fun seconds => decide (0 < seconds)) fun _ => .greaterThan
    let maxTurns := fields.read "max_turns" (some none) (reader.optional reader.positive)
    let game := fields.read "game" (some .default) (GameSpec.read reader)
    fields.close ["agents", "games_per_matchup", "move_time", "max_turns", "game"]
      (Checked.both (fun build game => build game)
        (Checked.both (fun build maxTurns => build maxTurns)
          (Checked.both (fun build moveTime => build moveTime)
            (Checked.both TournamentSpec.mk agents games) moveTime) maxTurns) game)

/-- The description with all fields. -/
def dump (spec : TournamentSpec) : Value :=
  .record [("agents", .list (spec.agents.map AgentSpec.dump)),
    ("games_per_matchup", .number (.int spec.gamesPerMatchup)),
    ("move_time", .number (.real spec.moveTime)),
    ("max_turns", .ofOptionalInt spec.maxTurns), ("game", spec.game.dump)]

end TournamentSpec

end GameSearch.Config
