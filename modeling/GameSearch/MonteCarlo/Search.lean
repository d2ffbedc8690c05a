import GameSearch.MonteCarlo.Scorer
import GameSearch.Search.Effort

/-!
# Monte Carlo tree search

Each iteration descends from the root through fully expanded nodes, adds a child for the first untried legal
action of the node it stops at, scores the new child for the searching player and counts the score along the
path back to the root. A descent that ends in a finished game, or where the player to move is stuck,
scores that node again.

The deadline is asked once before each iteration, and iterations are never interrupted. A score that is an
integer too large for a double cannot be counted, and the search fails.
-/

namespace GameSearch

variable {Memory Position Player Action : Type} [DecidableEq Player] [DecidableEq Action]

/-- Where a descent ends. -/
inductive Selection (Position Player Action : Type) where
  /-- At a node from which nothing can be expanded. -/
  | leaf (index : Nat) (position : Position)
  /-- At a node with an untried action of the player to move. -/
  | expansion (index : Nat) (position : Position) (side : Player) (action : Action)

/-- Descends from a node to the first one that is not fully expanded. -/
def SearchTree.select (tree : SearchTree Position Player Action)
    (game : Game Position Player Action) (scorer : ChildScorer) (index : Nat)
    (bound : index < tree.nodes.size) : Selection Position Player Action :=
  let node := tree.nodes[index]
  match game.status node.position with
  | .over _ => .leaf index node.position
  | .turn side =>
    let tried := node.children.map (·.1)
    match (game.legal node.position side).firstUntried tried tried with
    | some action => .expansion index node.position side action
    | none =>
      match tree.bestChild? scorer node with
      | none => .leaf index node.position
      | some child =>
        if step : index < child ∧ child < tree.nodes.size then
          tree.select game scorer child step.2
        else .leaf index node.position
termination_by tree.nodes.size - index

/-- Selects a node and expands it if it can be. -/
def SearchTree.grow [Worded Action] (tree : SearchTree Position Player Action)
    (game : Game Position Player Action) (scorer : ChildScorer) :
    Except Fault (SearchTree Position Player Action × Nat × Position) :=
  match tree.select game scorer 0 tree.nonempty with
  | .leaf index position => .ok (tree, index, position)
  | .expansion index position side action => do
    let next ← game.play position side action
    let (tree, child) ← tree.addChild index action next side
    return (tree, child, next)

/-- Runs at most `remaining` iterations and gives the tree and the number of those done. -/
def iterate [Worded Action] (game : Game Position Player Action)
    (evaluator : Evaluator Memory Position Player) (deadline : Deadline) (scorer : ChildScorer) :
    (remaining done : Nat) → SearchTree Position Player Action →
      SearchM Memory (SearchTree Position Player Action × Nat)
  | 0, done, tree => return (tree, done)
  | remaining + 1, done, tree => do
    if ← SearchM.expired deadline then return (tree, done)
    let (tree, leaf, position) ← tree.grow game scorer
    let reward ← SearchM.evaluate evaluator position tree.player
    let (counted, tree) := tree.backup leaf reward
    counted
    iterate game evaluator deadline scorer remaining (done + 1) tree

/-- How many iterations a search can have at most, by its own limit or by its deadline. -/
def iterationBound (deadline : Deadline) (maxIterations : Option Int) : Option Nat :=
  match maxIterations with
  | some limit => some limit.toNat
  | none => deadline.horizon

/-- Builds the search tree of a player until the deadline or the iteration limit. -/
def monteCarlo [Worded Action] (game : Game Position Player Action)
    (evaluator : Evaluator Memory Position Player) (deadline : Deadline) (scorer : ChildScorer)
    (maxIterations : Option Int) (player : Player) (position : Position) :
    SearchM Memory (SearchTree Position Player Action) := do
  SearchM.startSearch evaluator
  match iterationBound deadline maxIterations with
  | none => throw .unbounded
  | some bound =>
    let (tree, iterations) ←
      iterate game evaluator deadline scorer bound 0 (.ofRoot position player)
    SearchM.note .debug .monteCarlo
      (scorer.title ++ ": " ++ toString iterations ++ " iterations, " ++ toString tree.size ++
        " nodes, root visits " ++ toString tree.root.visits)
    return tree

/-- The most visited action of a search tree; the first legal one if there was no time to expand any. -/
def pickMonteCarlo [Worded Action] (game : Game Position Player Action)
    (evaluator : Evaluator Memory Position Player) (deadline : Deadline) (scorer : ChildScorer)
    (maxIterations : Option Int) (player : Player) (position : Position) :
    SearchM Memory (Option Action) := do
  let tree ← monteCarlo game evaluator deadline scorer maxIterations player position
  match tree.mostVisitedChild? tree.root with
  | none =>
    SearchM.note .debug .monteCarlo
      (scorer.title ++ ": no iterations completed, using first legal action")
    return game.firstLegal position player
  | some child => return tree.nodes[child]?.bind (·.action)

end GameSearch
