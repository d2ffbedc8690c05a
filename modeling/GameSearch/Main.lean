import GameSearch.CommandLine.Championship
import GameSearch.CommandLine.Duel

/-!
# The program

Two programs in one: `duel` plays a game of Nim between two players, and `championship` a tournament that is described
in a file. Everything is decided elsewhere; here files and lines are read and texts are written.
-/

namespace GameSearch.CommandLine

def readFile? (path : String) : IO (Option String) := do
  match ← (IO.FS.readFile path).toBaseIO with
  | .ok text => return some text
  | .error _ => return none

/-- Reads the files of some names in a directory, and those that they mention, in at most `steps` steps. -/
def readFiles (directory : String) :
    (steps : Nat) → List String → List (String × String) → IO (List (String × String))
  | 0, _, files => return files
  | _ + 1, [], files => return files
  | steps + 1, name :: names, files => do
    let path := directory ++ "/" ++ name ++ Compose.extension
    if files.any (·.1 == path) then readFiles directory steps names files
    else match ← readFile? path with
      | none => readFiles directory steps names files
      | some text =>
        let mentioned := match Compose.Source.read name text with
          | .ok source => source.mentioned.flatMap fun other =>
            [other, (Path.ofText name).parent.text ++ "/" ++ other]
          | .error _ => []
        readFiles directory steps (mentioned ++ names) ((path, text) :: files)

/-- The most files and mentions of files that are followed. -/
def mostFiles : Nat := 10000

/-- Reads the files that a tournament is described in. -/
def readTournament (arguments : List String) : IO Compose.Files := do
  let texts ← arguments.filterMapM fun path => do
    return (← readFile? path).map fun text => (path, text)
  let described ← arguments.filterMapM fun path => do
    match Config.Location.ofPath (.ofText path) with
    | .ok location => return some (← readFiles location.directory mostFiles [location.name] [])
    | .error _ => return none
  return .ofList (texts ++ described.flatten)

def noteLine (note : Note) : String :=
  let level := match note.level with
    | .debug => "DEBUG"
    | .info => "INFO"
    | .error => "ERROR"
  level ++ " - " ++ note.text

/-- How many questions a second holds. What the time is when a deadline is asked cannot be known before,
so the program counts questions in place of seconds. -/
def questionsPerSecond : Float := 20000

/-- Deadlines that pass after as many questions as their seconds hold. -/
def questionClock : Clock := fun seconds _ =>
  if seconds ≤ 0 then .expired else .atCheck (seconds * questionsPerSecond).toUInt64.toNat

/-- Generators from a seed of the system, a different one for each number and each draw. -/
def entropiesFrom (seed : Nat) : Tournament.Entropies := fun number draw =>
  .ofSeed ((seed * 0x100000000 + number) * 0x100000000 + draw)

/-- Generators that no two runs have in common. -/
def drawEntropies : IO Tournament.Entropies := do
  let bytes ← IO.getRandomBytes 16
  return entropiesFrom (bytes.foldl (fun seed byte => seed * 256 + byte.toNat) 0)

/-- Writes what a run did and gives the status to end with. -/
def conclude (outcome : Outcome) : IO UInt32 := do
  for note in outcome.notes do
    if note.level != .debug then IO.eprintln (noteLine note)
  IO.print outcome.output
  match outcome.ending with
  | .exit status => return status.toUInt32
  | .fault fault => IO.eprintln fault.message
  | .uncomposed _ => IO.eprintln "The configuration cannot be composed"
  | .invalid problems =>
    IO.eprintln ("The configuration has " ++ toString problems.length ++ " problems")
  return Outcome.refusal.toUInt32

end GameSearch.CommandLine

open GameSearch.CommandLine in
/-- Runs the program named by the first argument on the others. -/
def main (arguments : List String) : IO UInt32 := do
  let entropies ← drawEntropies
  match arguments with
  | "duel" :: arguments =>
    let input ← if arguments.contains GameSearch.Nim.Guest.humanWord
      then (← IO.getStdin).readToEnd else pure ""
    let entropy : GameSearch.Nim.Player → GameSearch.Random.Entropy
      | .one => entropies 0
      | .two => entropies 1
    conclude (Duel.run arguments input entropy questionClock)
  | "championship" :: arguments =>
    conclude (Championship.run arguments (← readTournament arguments) entropies questionClock)
  | _ =>
    IO.eprintln "duel or championship?"
    return Outcome.misuse.toUInt32
