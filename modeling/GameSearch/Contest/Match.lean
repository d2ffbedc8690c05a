import GameSearch.Contest.Play
import GameSearch.Decimal.Fixed

/-!
# Matches between two agents

Two agents play a number of games from the same starting position, swapping seats every other game if asked
to. The tally counts wins, and draws together with unfinished games.
-/

namespace GameSearch

/-- The counts of a match. -/
structure Tally where
  games : Int
  firstWins : Int
  secondWins : Int
  draws : Int
  deriving DecidableEq, Repr

namespace Tally

/-- The first agent's share of the games that were decided, one half if none was. -/
def winRate (tally : Tally) : Float :=
  let decided := tally.firstWins + tally.secondWins
  if 0 < decided then Double.ofQuotient tally.firstWins decided else 0.5

/-- One line of the summary: a count, and its share of all games. -/
def summaryLine (tally : Tally) (title : String) (count : Int) : String :=
  title ++ ": " ++ toString count ++ " (" ++
    Double.percent (Double.ofQuotient count (max tally.games 1)) ++ ")"

/-- The tally in words. -/
def summary (tally : Tally) (firstName secondName : String) : String :=
  "\n".intercalate
    ["Evaluation: " ++ firstName ++ " vs " ++ secondName,
     "Games: " ++ toString tally.games,
     tally.summaryLine (firstName ++ " wins") tally.firstWins,
     tally.summaryLine (secondName ++ " wins") tally.secondWins,
     tally.summaryLine "Draws" tally.draws]

end Tally

/-- How a game ended for two agents. -/
inductive Verdict where
  | first
  | second
  | draw
  deriving DecidableEq, Repr

/-- Who of two agents won, going by their seats. -/
def Verdict.ofWinner {Player : Type} [DecidableEq Player] (winner : Option Player)
    (firstSeat secondSeat : Player) : Verdict :=
  if winner = some firstSeat then .first
  else if winner = some secondSeat then .second
  else .draw

/-- Counts one game more. -/
def Tally.count (tally : Tally) : Verdict → Tally
  | .first => { tally with firstWins := tally.firstWins + 1 }
  | .second => { tally with secondWins := tally.secondWins + 1 }
  | .draw => { tally with draws := tally.draws + 1 }

/-- The tally of a match and its games. -/
structure MatchResult (Player Action : Type) where
  tally : Tally
  games : List (GameResult Player Action)

variable {Memory Position Player Action : Type}

/-- Two agents that meet, and the seats they take in turn order. -/
structure Pairing (Memory Position Player Action : Type) where
  first : Seat Memory Position Action
  second : Seat Memory Position Action
  players : Player × Player
  /-- Whether the agents swap seats every other game. -/
  alternate : Bool
  maxTurns : Option Int

namespace Pairing

/-- The seats of the first and the second agent in a game of the given number. -/
def seating (pairing : Pairing Memory Position Player Action) (number : Nat) : Player × Player :=
  if pairing.alternate ∧ number % 2 = 1 then pairing.players.swap else pairing.players

variable [DecidableEq Player] [Worded Player] [Worded Action]

/-- Plays the game of the given number. -/
def playNumber (pairing : Pairing Memory Position Player Action)
    (game : Game Position Player Action) (start : Position) (number : Nat)
    (effort : Effort Memory) : Played Memory Position Player Action :=
  let (firstSeat, secondSeat) := pairing.seating number
  playGame game (seatOf [(firstSeat, pairing.first), (secondSeat, pairing.second)])
    pairing.maxTurns start effort

/-- The note on a game of a match. -/
def report (pairing : Pairing Memory Position Player Action) (number : Nat) (games : Int)
    (result : GameResult Player Action) (verdict : Verdict) : Note :=
  let winner := match verdict with
    | .first => pairing.first.name
    | .second => pairing.second.name
    | .draw => "Draw"
  ⟨.info, .contest,
    "Game " ++ toString (number + 1) ++ "/" ++ toString games ++ ": " ++ pairing.first.name ++
      " as " ++ Worded.plain (pairing.seating number).1 ++ " vs " ++ pairing.second.name ++ ", " ++
      toString result.turns ++ " turns - " ++ winner⟩

/-- Plays games number `number`, `number + 1`, …, `remaining` in all. -/
def playFrom (pairing : Pairing Memory Position Player Action)
    (game : Game Position Player Action) (start : Position) (games : Int) :
    (remaining number : Nat) → Tally → SearchM Memory (MatchResult Player Action)
  | 0, _, tally => return ⟨tally, []⟩
  | remaining + 1, number, tally => do
    let result ← fun effort =>
      let played := pairing.playNumber game start number effort
      (played.result, played.effort)
    let seats := pairing.seating number
    let verdict := Verdict.ofWinner result.winner seats.1 seats.2
    modify fun effort =>
      { effort with notes := effort.notes.push (pairing.report number games result verdict) }
    let rest ← pairing.playFrom game start games remaining (number + 1) (tally.count verdict)
    return { rest with games := result :: rest.games }

/-- Plays a match of a number of games. -/
def play (pairing : Pairing Memory Position Player Action) (game : Game Position Player Action)
    (start : Position) (games : Int) : SearchM Memory (MatchResult Player Action) :=
  pairing.playFrom game start games games.toNat 0 ⟨games, 0, 0, 0⟩

end Pairing

end GameSearch
