import GameSearch.Decimal.Typed
import GameSearch.Game

/-!
# Search trees

The nodes of a search tree stand in one array and refer to each other by number: a node knows its parent's
number and, for every action expanded from it, the number of the child. The root has number zero, and
a child always has a greater number than its parent, which is what walks through the tree go by.

Rewards are given from the searching player's point of view and kept at each node from the point of view of
the side that acted into it, so a player who chooses among children always seeks the greatest. They are
summed up as doubles, and an integer that is too large for one breaks the sum off.
-/

namespace GameSearch

/-- One explored position. -/
structure SearchNode (Position Player Action : Type) where
  position : Position
  /-- Who acted to reach the position; at the root, the searching player. -/
  side : Player
  parent : Option Nat
  /-- The action that led here from the parent. -/
  action : Option Action
  /-- How many rewards have passed through the node. -/
  visits : Int
  /-- The sum of those rewards from `side`'s point of view. -/
  reward : Number
  /-- The expanded actions and their children, in the order of expansion. -/
  children : List (Action × Nat)

namespace SearchNode

variable {Position Player Action : Type}

/-- A node that nothing has passed through yet. -/
def fresh (position : Position) (side : Player) (parent : Option Nat) (action : Option Action) :
    SearchNode Position Player Action :=
  ⟨position, side, parent, action, 0, .real 0, []⟩

/-- The reward per visit, zero for an unvisited node. -/
def averageReward (node : SearchNode Position Player Action) : Except Fault Number :=
  if node.visits = 0 then .ok (.real 0) else node.reward.dividedBy (.int node.visits)

/-- The child that an action was expanded to. -/
def child? [DecidableEq Action] (node : SearchNode Position Player Action) (action : Action) :
    Option Nat :=
  (node.children.find? fun entry => entry.1 = action).map (·.2)

/-- One more visit, with a reward from the searching player's point of view. The visit stays counted
if the reward cannot be added. -/
def visit [DecidableEq Player] (node : SearchNode Position Player Action) (player : Player)
    (reward : Number) : Except Fault Unit × SearchNode Position Player Action :=
  let visited := { node with visits := node.visits + 1 }
  match node.reward.plus (if node.side = player then reward else -reward) with
  | .ok total => (.ok (), { visited with reward := total })
  | .error fault => (.error fault, visited)

/-- The node in one line. -/
def describe [Worded Player] [Worded Action] (node : SearchNode Position Player Action) :
    Except Fault String := do
  return "SearchNode(side=" ++ Worded.plain node.side ++ ", action=" ++
    Worded.optionalLiteral node.action ++ ", visits=" ++ (← Numeral.written node.visits) ++
    ", reward=" ++ (← node.reward.written) ++ ", children=" ++ toString node.children.length ++ ")"

end SearchNode

/-- The nodes of one search, the root first. -/
structure SearchTree (Position Player Action : Type) where
  /-- The searching player. -/
  player : Player
  nodes : Array (SearchNode Position Player Action)
  nonempty : 0 < nodes.size

namespace SearchTree

variable {Position Player Action : Type}

/-- A tree of its root alone. -/
def ofRoot (position : Position) (player : Player) : SearchTree Position Player Action :=
  ⟨player, #[.fresh position player none none], by simp⟩

/-- The number of nodes. -/
def size (tree : SearchTree Position Player Action) : Nat := tree.nodes.size

def root (tree : SearchTree Position Player Action) : SearchNode Position Player Action :=
  have := tree.nonempty
  tree.nodes[0]

/-- The node of a number. -/
def node? (tree : SearchTree Position Player Action) (index : Nat) :
    Except Fault (SearchNode Position Player Action) :=
  match tree.nodes[index]? with
  | some node => .ok node
  | none => .error .noSuchNode

/-- Changes one node. -/
def modify (tree : SearchTree Position Player Action) (index : Nat)
    (change : SearchNode Position Player Action → SearchNode Position Player Action) :
    SearchTree Position Player Action :=
  ⟨tree.player, tree.nodes.modify index change, by simpa using tree.nonempty⟩

/-- Attaches a child and gives its number. -/
def addChild [DecidableEq Action] [Worded Action] (tree : SearchTree Position Player Action)
    (parent : Nat) (action : Action) (position : Position) (side : Player) :
    Except Fault (SearchTree Position Player Action × Nat) := do
  let node ← tree.node? parent
  if (node.child? action).isSome then
    .error (.alreadyExpanded (Worded.literal action) parent)
  else
    let index := tree.size
    let linked := tree.modify parent fun node =>
      { node with children := node.children ++ [(action, index)] }
    .ok (⟨tree.player, linked.nodes.push (.fresh position side (some parent) (some action)),
      by simp⟩, index)

/-- The node and its ancestors, the root last. -/
def pathToRoot (tree : SearchTree Position Player Action) (index : Nat) : List Nat :=
  match tree.nodes[index]?.bind (·.parent) with
  | none => [index]
  | some parent => if parent < index then index :: tree.pathToRoot parent else [index]
termination_by index

/-- Counts a reward at the nodes of a list, up to one where it cannot be added. -/
def visitAll [DecidableEq Player] (reward : Number) :
    List Nat → SearchTree Position Player Action →
      Except Fault Unit × SearchTree Position Player Action
  | [], tree => (.ok (), tree)
  | index :: path, tree =>
    match tree.node? index with
    | .error fault => (.error fault, tree)
    | .ok node =>
      let (counted, visited) := node.visit tree.player reward
      let tree := tree.modify index fun _ => visited
      match counted with
      | .error fault => (.error fault, tree)
      | .ok () => visitAll reward path tree

/-- Counts a reward at a node and all its ancestors. The tree comes also with a fault, which leaves the
visits and rewards that were counted before it. -/
def backup [DecidableEq Player] (tree : SearchTree Position Player Action) (index : Nat)
    (reward : Number) : Except Fault Unit × SearchTree Position Player Action :=
  visitAll reward (tree.pathToRoot index) tree

end SearchTree

end GameSearch
