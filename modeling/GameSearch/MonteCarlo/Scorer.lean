import GameSearch.MonteCarlo.Tree

/-!
# Choosing among children

During selection a scorer gives every child of a node a score, and the first child with the greatest score is
descended into; a score that is not a number counts as greatest. The final choice of a search is the
child with the most visits.
-/

namespace GameSearch

/-- A policy that scores the children of a node from its visits and their visits and rewards. -/
structure ChildScorer where
  /-- The name of a search with this policy. -/
  title : String
  /-- The policy as a literal. -/
  literal : String
  scores : (parentVisits : Int) → List (Int × Float) → List Float
  length_scores : ∀ parentVisits children,
    (scores parentVisits children).length = children.length

/-- The upper confidence bound of one child: its average reward plus an allowance that shrinks with its
share of the visits. An unvisited child scores infinity. -/
def upperConfidence (exploration : Float) (parentVisits visits : Int) (reward : Float) : Float :=
  let count := Float.ofInt visits
  let safe := if count < 1 then 1 else count
  let allowance := exploration * Float.sqrt (Float.log (Float.ofInt (max parentVisits 1)) / safe)
  if visits = 0 then Float.ofBits 0x7FF0000000000000 else reward / safe + allowance

/-- Upper confidence bounds with an exploration constant, which is a double or rounds to a finite one. -/
def ChildScorer.uct1 (exploration : Number) : ChildScorer where
  title := "UCT1(C=" ++ exploration.text ++ ")"
  literal := "Uct1(exploration=" ++ exploration.text ++ ")"
  scores parentVisits children := children.map fun child =>
    upperConfidence exploration.toFloat parentVisits child.1 child.2
  length_scores := by simp

/-- The fewer visits, the better. -/
def ChildScorer.leastVisited : ChildScorer where
  title := "MonteCarlo(LeastVisited)"
  literal := "LeastVisited()"
  scores _ children := children.map fun child => Float.ofInt (-child.1)
  length_scores := by simp

/-- The first entry that no later one beats and that beats all earlier ones. -/
def firstBest {α β : Type} (beats : β → β → Bool) : α × β → List (α × β) → α × β
  | best, [] => best
  | best, next :: rest => firstBest beats (if beats next.2 best.2 then next else best) rest

/-- Whether a score beats another one; a score that is not a number beats all others. -/
def scoreBeats (score other : Float) : Bool :=
  if other.isNaN then false else score.isNaN || other < score

namespace SearchTree

variable {Position Player Action : Type}

/-- The visits and the reward of a child. -/
def standing (tree : SearchTree Position Player Action) (child : Nat) : Int × Float :=
  match tree.nodes[child]? with
  | some node => (node.visits, node.reward.toFloat)
  | none => (0, 0)

/-- The child of a node that a scorer likes best. -/
def bestChild? (tree : SearchTree Position Player Action) (scorer : ChildScorer)
    (node : SearchNode Position Player Action) : Option Nat :=
  let children := node.children.map (·.2)
  match children.zip (scorer.scores node.visits (children.map tree.standing)) with
  | [] => none
  | first :: rest => some (firstBest scoreBeats first rest).1

/-- The child of a node with the most visits. -/
def mostVisitedChild? (tree : SearchTree Position Player Action)
    (node : SearchNode Position Player Action) : Option Nat :=
  match node.children.map fun entry => (entry.2, (tree.standing entry.2).1) with
  | [] => none
  | first :: rest => some (firstBest (fun visits other => other < visits) first rest).1

/-- The child that a scorer likes best, of the node of a number. -/
def bestChild (tree : SearchTree Position Player Action) (scorer : ChildScorer) (index : Nat) :
    Except Fault Nat := do
  match tree.bestChild? scorer (← tree.node? index) with
  | some child => .ok child
  | none => .error (.noChildren index)

/-- The child with the most visits, of the node of a number. -/
def mostVisitedChild (tree : SearchTree Position Player Action) (index : Nat) :
    Except Fault Nat := do
  match tree.mostVisitedChild? (← tree.node? index) with
  | some child => .ok child
  | none => .error (.noChildren index)

end SearchTree

end GameSearch
