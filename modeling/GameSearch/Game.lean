import GameSearch.Fault
import GameSearch.Moves

/-!
# Games

A game is given by what can be asked of a position: whose turn it is or who has won, which moves are
legal in which order, where a move leads, and, for games that are bound to end, after how many moves
at the latest. Players and actions are compared by value; searches treat them as opaque.
-/

namespace GameSearch

/-- Whose turn it is, or how the game ended. -/
inductive Status (Player : Type) where
  /-- The game is running and a player must act. -/
  | turn (player : Player)
  /-- The game is over; without a winner it is a draw. -/
  | over (winner : Option Player)
  deriving DecidableEq, Repr

/-- How values of a type are written in messages: on their own, and inside a larger value. -/
class Worded (α : Type) where
  plain : α → String
  literal : α → String

instance : Worded String := ⟨id, Text.quoted⟩

def Worded.optional {α : Type} [Worded α] : Option α → String
  | none => "None"
  | some value => plain value

def Worded.optionalLiteral {α : Type} [Worded α] : Option α → String
  | none => "None"
  | some value => literal value

/-- A two-player game, or any game whose players act one at a time. -/
structure Game (Position Player Action : Type) where
  status : Position → Status Player
  /-- The legal actions of a player. Their order breaks ties and never decides what is legal. -/
  legal : Position → Player → Moves Action
  /-- The position after a player's action. -/
  play : Position → Player → Action → Except Fault Position
  /-- A bound on the number of moves to come, if there is one. -/
  height : Position → Option Nat
  /-- A player who is not to move has no legal action. -/
  legal_idle : ∀ position player, status position ≠ .turn player →
    (legal position player).toList = []
  /-- Exactly the legal actions can be played. -/
  play_isOk : ∀ position player action,
    (∃ next, play position player action = .ok next) ↔ action ∈ legal position player
  /-- Every move lowers the bound on the moves to come. -/
  height_play : ∀ position player action next moves,
    play position player action = .ok next → height position = some moves →
      ∃ fewer, height next = some fewer ∧ fewer < moves

namespace Game

variable {Position Player Action : Type}

def firstLegal (game : Game Position Player Action) (position : Position) (player : Player) :
    Option Action :=
  (game.legal position player).head?

theorem mem_legal_of_firstLegal {game : Game Position Player Action} {position : Position}
    {player : Player} {action : Action} (first : game.firstLegal position player = some action) :
    action ∈ game.legal position player := by
  rw [firstLegal, ← Moves.head?_toList] at first
  exact List.mem_of_head? first

theorem firstLegal_eq_none {game : Game Position Player Action} {position : Position}
    {player : Player} :
    game.firstLegal position player = none ↔ (game.legal position player).toList = [] :=
  Moves.head?_eq_none

/-- How long a game of unknown length may last before it counts as endless. -/
def patience : Nat := 1000000

end Game

end GameSearch
