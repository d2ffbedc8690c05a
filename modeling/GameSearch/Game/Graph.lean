import GameSearch.Game
import GameSearch.Number

/-!
# Games given by their positions

A small game can be written down as a graph: named nodes, each of which is finished or lists the moves of one
player to other nodes. Positions may repeat, moves may be listed twice, and a player to move may have
no move at all. If an action is listed twice, it leads where its last entry says.

A node from which no line of play runs in a circle has a bound on the moves to come. The bounds are
computed in rounds: a node is settled one round after the nodes it leads to.
-/

namespace GameSearch.Graph

/-- The name of a player: a text or a number. -/
inductive Label where
  | text (value : String)
  | number (value : Int)
  deriving DecidableEq, Repr

instance : Worded Label where
  plain
    | .text value => value
    | .number value => toString value
  literal
    | .text value => Text.quoted value
    | .number value => toString value

/-- What is known of a node. -/
structure Node where
  status : Status Label
  /-- The actions of the player to move, each with the node it leads to. -/
  moves : List (String × String)
  /-- A score for the node, if it has one. -/
  value : Option Number

/-- Named nodes. -/
abbrev Entries := List (String × Node)

/-- What is known of a named node. A name that is not listed is a draw. -/
def Entries.node (entries : Entries) (name : String) : Node :=
  match entries.find? fun entry => entry.1 == name with
  | some entry => entry.2
  | none => ⟨.over none, [], none⟩

/-- Bounds on the moves that follow the listed nodes, where known. -/
abbrev Bounds := List (String × Option Nat)

/-- The bound of a named node. No move follows a node that is not listed. -/
def Bounds.of (bounds : Bounds) (name : String) : Option Nat :=
  match bounds.find? fun entry => entry.1 == name with
  | some entry => entry.2
  | none => some 0

/-- A bound above several others, if all of them are known. -/
def boundAbove : List (Option Nat) → Option Nat
  | [] => some 0
  | bound :: bounds =>
    match bound, boundAbove bounds with
    | some bound, some best => some (max (bound + 1) best)
    | _, _ => none

theorem lt_of_boundAbove {bounds : List (Option Nat)} {best : Nat}
    (known : boundAbove bounds = some best) :
    ∀ bound ∈ bounds, ∃ moves, bound = some moves ∧ moves < best := by
  induction bounds generalizing best with
  | nil => simp
  | cons bound bounds ih =>
    unfold boundAbove at known
    split at known
    · rename_i moves rest restKnown
      obtain rfl : max (moves + 1) rest = best := by simpa using known
      intro other mem
      rcases List.mem_cons.mp mem with rfl | mem
      · exact ⟨moves, rfl, by omega⟩
      · obtain ⟨fewer, equal, less⟩ := ih restKnown other mem
        exact ⟨fewer, equal, by omega⟩
    · simp at known

theorem boundAbove_mono {α : Type} {first second : α → Option Nat} (items : List α) {best : Nat}
    (grows : ∀ item moves, first item = some moves → second item = some moves)
    (known : boundAbove (items.map first) = some best) :
    boundAbove (items.map second) = some best := by
  induction items generalizing best with
  | nil => simpa using known
  | cons item items ih =>
    simp only [List.map_cons, boundAbove] at known ⊢
    split at known
    · rename_i moves rest here restKnown
      rw [grows _ _ here, ih restKnown]
      exact known
    · simp at known

/-- One round: every node is settled whose moves all lead to settled nodes. -/
def Entries.settle (entries : Entries) (bounds : Bounds) : Bounds :=
  entries.map fun entry =>
    (entry.1, boundAbove (entry.2.moves.map fun move => bounds.of move.2))

theorem Entries.of_settle (entries : Entries) (bounds : Bounds) (name : String) :
    (entries.settle bounds).of name =
      boundAbove ((entries.node name).moves.map fun move => bounds.of move.2) := by
  induction entries with
  | nil => rfl
  | cons entry entries ih =>
    by_cases same : entry.1 == name
    · simp [settle, Bounds.of, node, same]
    · simpa [settle, Bounds.of, node, same] using ih

/-- The bounds after some rounds, from no node settled. -/
def Entries.boundsAfter (entries : Entries) : (rounds : Nat) → Bounds
  | 0 => entries.map fun entry => (entry.1, none)
  | rounds + 1 => entries.settle (entries.boundsAfter rounds)

theorem Entries.of_start {entries : Entries} {name : String} {moves : Nat}
    (known : (entries.boundsAfter 0).of name = some moves) :
    moves = 0 ∧ (entries.node name).moves = [] := by
  induction entries with
  | nil => exact ⟨by simpa [boundsAfter, Bounds.of] using known.symm, rfl⟩
  | cons entry entries ih =>
    by_cases same : entry.1 == name
    · simp [boundsAfter, Bounds.of, same] at known
    · simpa [boundsAfter, node, same] using
        ih (by simpa [boundsAfter, Bounds.of, same] using known)

theorem Entries.of_boundsAfter_succ {entries : Entries} {rounds : Nat} {name : String}
    {moves : Nat} (known : (entries.boundsAfter rounds).of name = some moves) :
    (entries.boundsAfter (rounds + 1)).of name = some moves := by
  induction rounds generalizing name moves with
  | zero =>
    obtain ⟨rfl, none⟩ := of_start known
    rw [boundsAfter, of_settle, none]
    rfl
  | succ rounds ih =>
    rw [boundsAfter, of_settle] at known ⊢
    exact boundAbove_mono _ (fun _ _ => ih) known

/-- Named nodes together with bounds on the moves that follow them. -/
structure Table where
  entries : Entries
  bounds : Bounds
  bounded : ∀ name moves, bounds.of name = some moves →
    ∀ move ∈ (entries.node name).moves, ∃ fewer, bounds.of move.2 = some fewer ∧ fewer < moves

/-- The table of named nodes. As many rounds as there are nodes settle all that can be settled. -/
def Table.ofEntries (entries : Entries) : Table where
  entries := entries
  bounds := entries.boundsAfter entries.length
  bounded name moves known move mem := by
    have settled := Entries.of_boundsAfter_succ known
    rw [Entries.boundsAfter, Entries.of_settle] at settled
    exact lt_of_boundAbove settled _ (List.mem_map_of_mem mem)

/-- A node of a graph. -/
structure Position where
  table : Table
  name : String

namespace Position

/-- What is known of a position. -/
def node (position : Position) : Node := position.table.entries.node position.name

/-- The moves of a player with the nodes they lead to. -/
def movesOf (position : Position) (player : Label) : List (String × String) :=
  if position.node.status = .turn player then position.node.moves else []

/-- The legal actions of a player in the order in which they are listed. -/
def legal (position : Position) (player : Label) : Moves String :=
  .ofList ((position.movesOf player).map (·.1))

/-- Where an action leads. -/
def play (position : Position) (player : Label) (action : String) : Except Fault Position :=
  match (position.movesOf player).reverse.find? fun move => move.1 == action with
  | some move => .ok { position with name := move.2 }
  | none => .error (.illegalAction
      (Worded.plain player ++ " cannot play " ++ action ++ " at " ++ position.name))

/-- A bound on the moves to come. -/
def height (position : Position) : Option Nat := position.table.bounds.of position.name

end Position

def game : Game Position Label String where
  status position := position.node.status
  legal := Position.legal
  play := Position.play
  height := Position.height
  legal_idle position player idle := by simp [Position.legal, Position.movesOf, idle]
  play_isOk position player action := by
    simp only [Position.play, Position.legal, Moves.mem_def, Moves.toList_ofList]
    constructor
    · rintro ⟨next, played⟩
      split at played
      · rename_i move found
        have mem := List.mem_of_find?_eq_some found
        have same := List.find?_some found
        exact List.mem_map.mpr ⟨move, List.mem_reverse.mp mem, by simpa using same⟩
      · simp at played
    · intro mem
      obtain ⟨move, listed, rfl⟩ := List.mem_map.mp mem
      split
      · exact ⟨_, rfl⟩
      · rename_i missing
        simpa using List.find?_eq_none.mp missing move (List.mem_reverse.mpr listed)
  height_play position player action next moves played known := by
    simp only [Position.play] at played
    split at played
    · rename_i move found
      have mem := List.mem_reverse.mp (List.mem_of_find?_eq_some found)
      obtain rfl : { position with name := move.2 } = next := by simpa using played
      refine position.table.bounded _ _ known move ?_
      unfold Position.movesOf at mem
      split at mem
      · exact mem
      · simp at mem
    · simp at played

end GameSearch.Graph
