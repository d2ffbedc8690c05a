import GameSearch.Decimal.Fixed
import GameSearch.Fault
import GameSearch.Text.Column

/-!
# Results of a tournament

A tournament's results are the matchups of its agents. Every matchup can be seen from both sides. From them
follow the table of wins, draws and losses and the standings: a win counts one point and a draw half a
point, and agents are ranked by points, then by wins, then in the order in which they are named.
-/

namespace GameSearch

/-- The games between two agents. -/
structure Matchup where
  first : String
  second : String
  wins : Int
  draws : Int
  losses : Int
  deriving DecidableEq, Repr

namespace Matchup

/-- The number of games. -/
def games (matchup : Matchup) : Int := matchup.wins + matchup.draws + matchup.losses

/-- The same games seen from the other side. -/
def flipped (matchup : Matchup) : Matchup :=
  ⟨matchup.second, matchup.first, matchup.losses, matchup.draws, matchup.wins⟩

@[simp] theorem flipped_flipped (matchup : Matchup) : matchup.flipped.flipped = matchup := rfl

/-- Wins, draws and losses in one word. -/
def cell (matchup : Matchup) : String :=
  toString matchup.wins ++ "/" ++ toString matchup.draws ++ "/" ++ toString matchup.losses

end Matchup

/-- Wins, draws and losses. -/
structure Score where
  wins : Int
  draws : Int
  losses : Int
  deriving DecidableEq, Repr

/-- Adds the games of a matchup. -/
def Score.add (score : Score) (matchup : Matchup) : Score :=
  ⟨score.wins + matchup.wins, score.draws + matchup.draws, score.losses + matchup.losses⟩

/-- One row of the standings. -/
structure Standing where
  rank : Nat
  name : String
  score : Score
  points : Float

/-- The matchups of a tournament and the names of its agents. -/
structure Results where
  matchups : List Matchup
  names : List String
  deriving DecidableEq, Repr

namespace Results

/-- The first matchup between two agents, seen from the first one's side. -/
def matchup? (results : Results) (first second : String) : Option Matchup :=
  results.matchups.findSome? fun matchup =>
    if matchup.first = first ∧ matchup.second = second then some matchup
    else if matchup.first = second ∧ matchup.second = first then some matchup.flipped
    else none

/-- The matchups of an agent with all others, in the order of their names. -/
def matchupsOf (results : Results) (name : String) : List Matchup :=
  results.names.filterMap fun other =>
    if other = name then none else results.matchup? name other

/-- One point for every win and half a point for every draw. -/
def points (results : Results) (name : String) : Float :=
  (results.matchupsOf name).foldl
    (fun total matchup =>
      total + (Float.ofInt matchup.wins + 0.5 * Float.ofInt matchup.draws)) 0

/-- The wins, draws and losses of an agent; a name that occurs repeatedly counts repeatedly. -/
def total (results : Results) (name : String) : Score :=
  ((results.names.filter (· = name)).flatMap fun _ => results.matchupsOf name).foldl
    Score.add ⟨0, 0, 0⟩

/-- Whether one agent may stand above another one: by points, then by wins. -/
def mayPrecede (results : Results) (name other : String) : Bool :=
  let points := results.points name
  let otherPoints := results.points other
  if points == otherPoints then (results.total other).wins ≤ (results.total name).wins
  else otherPoints < points

/-- The names from the first place to the last one. -/
def ranking (results : Results) : List String :=
  results.names.mergeSort results.mayPrecede

/-- The rows of the standings. -/
def standings (results : Results) : List Standing :=
  results.ranking.zipIdx.map fun entry =>
    ⟨entry.2 + 1, entry.1, results.total entry.1, results.points entry.1⟩

/-- The greatest of the given lengths and a least width. -/
def columnWidth (least : Nat) (lengths : List Nat) : Nat := lengths.foldl max least

/-- What one agent's row of the table says about another agent. -/
def cell (results : Results) (row column : String) : String :=
  if row = column then "-"
  else match results.matchup? row column with
    | some matchup => matchup.cell
    | none => "?"

/-- The table of wins, draws and losses, each row from its agent's side. -/
def winTable (results : Results) : Except Fault String :=
  if results.names.isEmpty then .error .noAgents
  else
    let width := columnWidth 10 (results.names.map String.length)
    let columns (cells : List String) : String :=
      String.join (cells.map fun cell => Text.alignRight width cell ++ "  ")
    let rows := results.names.map fun row =>
      Text.alignLeft width row ++ "  " ++ columns (results.names.map (results.cell row))
    .ok ("\n".intercalate (["Tournament Results (W/D/L from row's perspective)",
      Text.repeated 50 '=', Text.repeated (width + 2) ' ' ++ columns results.names] ++ rows))

/-- One line of the table of standings. -/
def standingLine (nameWidth : Nat) (rank name wins draws losses points : String) : String :=
  Text.alignLeft 6 rank ++ Text.alignLeft nameWidth name ++ Text.alignRight 6 wins ++
    Text.alignRight 6 draws ++ Text.alignRight 6 losses ++ Text.alignRight 6 points

def standingsTable (results : Results) : Except Fault String :=
  if results.names.isEmpty then .error .noAgents
  else
    let nameWidth := columnWidth 15 (results.names.map (·.length + 2))
    let width := 6 + nameWidth + 24
    let rows := results.standings.map fun standing =>
      standingLine nameWidth (toString standing.rank) standing.name
        (toString standing.score.wins) (toString standing.score.draws)
        (toString standing.score.losses) (Double.fixed 1 standing.points)
    .ok ("\n".intercalate (["Standings", Text.repeated width '=',
      standingLine nameWidth "Rank" "Agent" "W" "D" "L" "Pts", Text.repeated width '-'] ++ rows))

end Results

end GameSearch
