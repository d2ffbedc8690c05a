import GameSearch.Proofs.MonteCarlo.Exploration
import Mathlib.Algebra.BigOperators.Group.List.Basic
import Mathlib.Algebra.Ring.Int.Defs

/-!
# Conservation of visits

A reward is counted along one walk to the root. A walk that passes through a node without starting
there passes through exactly one of its children, so it adds as much to the visits of the node as to
those of its children together. Only the start of the walk gains a visit that no child has: a new
node its first one, and a node without choices, which has no children, any other.
-/

namespace GameSearch

variable {Memory Position Player Action : Type} {game : Game Position Player Action}
  {scorer : ChildScorer}

namespace SearchTree

variable {tree next : SearchTree Position Player Action} {start position : Position}
  {index leaf child parent done : Nat} {node : SearchNode Position Player Action} {side : Player}
  {action : Action}

/-- The visits of all children of a node. -/
def childVisits (tree : SearchTree Position Player Action)
    (node : SearchNode Position Player Action) : Int :=
  (node.children.map fun entry => (tree.standing entry.2).1).sum

theorem visits_standing (at_child : tree.nodes[child]? = some node) :
    (tree.standing child).1 = node.visits := by
  simp only [standing, at_child]

variable [DecidableEq Action]

section Walk

theorem Explores.nodup_children (explores : tree.Explores game start)
    (at_index : tree.nodes[index]? = some node) : (node.children.map (·.2)).Nodup := by
  rcases explores.in_order at_index with ⟨count, order⟩
  have distinct : (node.children.map (·.1)).Nodup := by
    rw [order]
    exact Game.nodup_choices.sublist (List.take_sublist count _)
  refine List.Nodup.map_on ?_ (List.Nodup.of_map _ distinct)
  rintro ⟨action, child⟩ mem ⟨other, _⟩ otherMem rfl
  rcases (explores.childrenDisjoint at_index mem at_index otherMem).2 with rfl
  rfl

/-- Of the children of a node, a node is one exactly if the node is its parent. -/
theorem Explores.sum_children_eq (explores : tree.Explores game start)
    (at_index : tree.nodes[index]? = some node) {leafNode : SearchNode Position Player Action}
    (at_leaf : tree.nodes[leaf]? = some leafNode) (parent_eq : leafNode.parent = some parent) :
    (node.children.map fun entry => if entry.2 = leaf then (1 : Int) else 0).sum =
      if index = parent then 1 else 0 := by
  have counted : (node.children.map fun entry => if entry.2 = leaf then (1 : Int) else 0).sum =
      (node.children.map (·.2)).count leaf := by
    have sum_eq := List.sum_map_ite_eq (node.children.map (·.2)) (fun _ => (1 : Int)) (fun _ => 0)
      leaf
    simpa [Function.comp_def] using sum_eq
  rw [counted]
  split
  · rename_i same
    subst same
    rcases explores.of_parent at_leaf parent_eq with ⟨-, parentNode, action, at_parent, -, found⟩
    rcases Option.some.inj (at_index.symm.trans at_parent) with rfl
    rcases Option.map_eq_some_iff.mp found with ⟨entry, first, rfl⟩
    have mem : entry.2 ∈ node.children.map (·.2) :=
      List.mem_map_of_mem (List.mem_of_find?_eq_some first)
    rw [List.count_eq_one_of_mem (explores.nodup_children at_index) mem]
    rfl
  · rename_i different
    rw [List.count_eq_zero_of_not_mem]
    · rfl
    · intro mem
      rcases List.mem_map.mp mem with ⟨⟨action, _⟩, entry_mem, rfl⟩
      rcases explores.of_child at_index entry_mem with ⟨childNode, at_child, known, -⟩
      rcases Option.some.inj (at_leaf.symm.trans at_child) with rfl
      exact different (Option.some.inj (known.symm.trans parent_eq))

/-- A walk goes through one child of a node if it goes through the node and starts elsewhere, and
else through none. -/
theorem Explores.sum_children_on_path (explores : tree.Explores game start)
    (at_index : tree.nodes[index]? = some node) (bound : leaf < tree.nodes.size) :
    (node.children.map fun entry => if entry.2 ∈ tree.pathToRoot leaf then (1 : Int) else 0).sum =
      if index ∈ tree.pathToRoot leaf ∧ index ≠ leaf then 1 else 0 := by
  induction leaf using Nat.strong_induction_on with
  | h leaf ih =>
      have at_leaf := Array.getElem?_eq_getElem bound
      cases parent_eq : tree.nodes[leaf].parent with
      | none =>
          have leaf_eq := (explores.orphan_iff at_leaf).mp parent_eq
          rw [pathToRoot_of_orphan at_leaf parent_eq, if_neg (by simp)]
          apply List.sum_eq_zero
          simp only [List.mem_map, List.mem_singleton, forall_exists_index, and_imp]
          rintro _ ⟨action, child⟩ mem rfl
          have := (explores.lt_of_mem_children at_index mem).1
          exact if_neg (by dsimp only; omega)
      | some parent =>
          have lower := (explores.of_parent at_leaf parent_eq).1
          have new : leaf ∉ tree.pathToRoot parent :=
            fun mem => absurd (le_of_mem_pathToRoot mem) (Nat.not_le.mpr lower)
          have split_path : (fun entry : Action × Nat =>
                if entry.2 ∈ leaf :: tree.pathToRoot parent then (1 : Int) else 0) =
              fun entry => (if entry.2 = leaf then 1 else 0) +
                if entry.2 ∈ tree.pathToRoot parent then 1 else 0 := by
            funext entry
            by_cases here : entry.2 = leaf
            · simp [here, new]
            · simp [here]
          rw [pathToRoot_of_parent at_leaf parent_eq lower, split_path, List.sum_map_add,
            explores.sum_children_eq at_index at_leaf parent_eq, ih parent lower (by omega)]
          have passes_iff : index ∈ leaf :: tree.pathToRoot parent ∧ index ≠ leaf ↔
              index ∈ tree.pathToRoot parent := by
            rw [List.mem_cons]
            constructor
            · rintro ⟨here | above, elsewhere⟩
              · exact absurd here elsewhere
              · exact above
            · exact fun above => ⟨.inr above, fun here => new (here ▸ above)⟩
          simp only [passes_iff]
          by_cases here : index = parent
          · simp [here, mem_pathToRoot_self]
          · simp [here]

end Walk

section Attach

theorem Attaches.visits_standing (attaches : tree.Attaches next parent action position side)
    (bound : child < tree.nodes.size) : (next.standing child).1 = (tree.standing child).1 := by
  have at_child := Array.getElem?_eq_getElem bound
  rw [SearchTree.visits_standing at_child,
    SearchTree.visits_standing (attaches.at_of_at at_child)]
  rfl

/-- A new child brings no visits with it. -/
theorem Attaches.childVisits_eq (attaches : tree.Attaches next parent action position side)
    (linked : tree.Linked) (at_index : tree.nodes[index]? = some node) (here : Bool) :
    next.childVisits (node.attachIf here action tree.nodes.size) = tree.childVisits node := by
  have known : (node.children.map fun entry => (next.standing entry.2).1) =
      node.children.map fun entry => (tree.standing entry.2).1 := by
    apply List.map_congr_left
    rintro ⟨taken, child⟩ mem
    exact attaches.visits_standing (linked.lt_of_mem_children at_index mem).2
  have fresh : (next.standing tree.nodes.size).1 = 0 :=
    SearchTree.visits_standing attaches.at_new
  cases here with
  | false => exact congrArg List.sum known
  | true => simp [childVisits, SearchNode.attachIf, known, fresh]

end Attach

/-- Whether the visits of a tree are those of its iterations: each iteration visits the root, and
what it visits last is new or has no choices. -/
structure ConservesVisits (tree : SearchTree Position Player Action)
    (game : Game Position Player Action) (iterations : Nat) : Prop where
  visits_root : ∀ {node : SearchNode Position Player Action},
    tree.nodes[0]? = some node → node.visits = iterations
  size_le : tree.size ≤ iterations + 1
  visited : ∀ {index : Nat} {node : SearchNode Position Player Action},
    tree.nodes[index]? = some node → 0 < index → 1 ≤ node.visits
  /-- A finished game and a player who is stuck have no children. -/
  childless : ∀ {index : Nat} {node : SearchNode Position Player Action},
    tree.nodes[index]? = some node → game.choices node.position = [] → node.children = []
  /-- Any other node has been visited once for itself, unless it is the root, and once for each
  visit of a child. -/
  visits_eq : ∀ {index : Nat} {node : SearchNode Position Player Action},
    tree.nodes[index]? = some node → game.choices node.position ≠ [] →
      node.visits = (if index = 0 then 0 else 1) + tree.childVisits node

/-- Whether a tree lacks nothing but the visit of a leaf. -/
structure Awaits (tree : SearchTree Position Player Action) (game : Game Position Player Action)
    (leaf done : Nat) : Prop where
  bound : leaf < tree.nodes.size
  visits_root : ∀ {node : SearchNode Position Player Action},
    tree.nodes[0]? = some node → node.visits = done
  size_le : tree.size ≤ done + 2
  visited : ∀ {index : Nat} {node : SearchNode Position Player Action},
    tree.nodes[index]? = some node → 0 < index →
      0 ≤ node.visits ∧ (index ≠ leaf → 1 ≤ node.visits)
  visits_eq : ∀ {index : Nat} {node : SearchNode Position Player Action},
    tree.nodes[index]? = some node → index ≠ leaf → game.choices node.position ≠ [] →
      node.visits = (if index = 0 then 0 else 1) + tree.childVisits node
  fresh : ∀ {node : SearchNode Position Player Action}, tree.nodes[leaf]? = some node →
    game.choices node.position ≠ [] → leaf ≠ 0 ∧ node.visits = 0 ∧ node.children = []

theorem conservesVisits_ofRoot (game : Game Position Player Action) (start : Position)
    (player : Player) :
    (ofRoot start player : SearchTree Position Player Action).ConservesVisits game 0 := by
  constructor
  · intro node at_root
    rcases of_at_ofRoot at_root with ⟨-, rfl⟩
    rfl
  · exact le_rfl
  · intro index node at_index positive
    rcases of_at_ofRoot at_index with ⟨rfl, -⟩
    omega
  · intro index node at_index _
    rcases of_at_ofRoot at_index with ⟨-, rfl⟩
    rfl
  · intro index node at_index _
    rcases of_at_ofRoot at_index with ⟨rfl, rfl⟩
    rfl

theorem Grows.awaits (grows : tree.Grows game next leaf position) (linked : tree.Linked)
    (conserves : tree.ConservesVisits game done) : next.Awaits game leaf done := by
  cases grows with
  | stays at_index above choiceless =>
      constructor
      · exact (Array.getElem?_eq_some_iff.mp at_index).1
      · exact conserves.visits_root
      · exact conserves.size_le.trans (Nat.le_succ _)
      · intro index node at_node positive
        have visited := conserves.visited at_node positive
        exact ⟨by omega, fun _ => visited⟩
      · exact fun at_node _ => conserves.visits_eq at_node
      · intro node at_leaf choices
        rcases Option.some.inj (at_leaf.symm.trans at_index) with rfl
        exact absurd choiceless choices
  | attaches at_index above turn untried played attaches =>
      have nonempty := tree.nonempty
      constructor
      · rw [attaches.size_eq]
        exact Nat.lt_succ_self _
      · intro node at_root
        rcases attaches.new_or_old at_root with ⟨empty, -⟩ | ⟨old, at_old, rfl⟩
        · omega
        · have visits_root := conserves.visits_root at_old
          exact visits_root
      · have size_le := conserves.size_le
        simp only [size, attaches.size_eq] at size_le ⊢
        omega
      · intro index node at_node positive
        rcases attaches.new_or_old at_node with ⟨rfl, rfl⟩ | ⟨old, at_old, rfl⟩
        · exact ⟨le_rfl, fun different => absurd rfl different⟩
        · have visited : 1 ≤ old.visits := conserves.visited at_old positive
          exact ⟨by simp only [SearchNode.attachIf]; omega, fun _ => visited⟩
      · intro index node at_node different choices
        rcases attaches.new_or_old at_node with ⟨rfl, -⟩ | ⟨old, at_old, rfl⟩
        · exact absurd rfl different
        · rw [attaches.childVisits_eq linked at_old]
          exact conserves.visits_eq at_old choices
      · intro node at_leaf _
        rw [attaches.at_new] at at_leaf
        rcases Option.some.inj at_leaf with rfl
        exact ⟨by omega, rfl, rfl⟩

variable [DecidableEq Player]

theorem Linked.childVisits_credit (linked : tree.Linked) (leaf : Nat) (reward : Number)
    (at_index : tree.nodes[index]? = some node) {counted : Bool} {player : Player} :
    (tree.credit leaf reward).childVisits (node.creditIf counted player reward) =
      tree.childVisits node + (node.children.map fun entry =>
        if entry.2 ∈ tree.pathToRoot leaf then (1 : Int) else 0).sum := by
  rw [childVisits, childVisits, SearchNode.children_creditIf, ← List.sum_map_add]
  congr 1
  apply List.map_congr_left
  rintro ⟨action, child⟩ mem
  rcases linked.of_child at_index mem with ⟨childNode, at_child, -⟩
  rw [visits_standing at_child, visits_standing (at_credit_of_at leaf reward at_child),
    SearchNode.visits_creditIf]
  by_cases passed : child ∈ tree.pathToRoot leaf
  · simp [passed]
  · simp [passed]

/-- The visit of the leaf is all that was missing. -/
theorem Awaits.credit (awaits : tree.Awaits game leaf done) (explores : tree.Explores game start)
    (ready : tree.Ready game leaf) (reward : Number) :
    (tree.credit leaf reward).ConservesVisits game (done + 1) := by
  have at_end : ∀ {index}, index < tree.nodes.size → 0 ∈ tree.pathToRoot index :=
    fun bound => List.mem_of_getLast? (explores.climbs bound).2
  constructor
  · intro node at_root
    rcases exists_of_at_credit at_root with ⟨old, at_old, rfl⟩
    rw [SearchNode.visits_creditIf, if_pos (decide_eq_true (at_end awaits.bound)),
      awaits.visits_root at_old]
    rfl
  · rw [size_credit]
    exact awaits.size_le
  · intro index node at_index positive
    rcases exists_of_at_credit at_index with ⟨old, at_old, rfl⟩
    rcases awaits.visited at_old positive with ⟨nonneg, visited⟩
    rw [SearchNode.visits_creditIf]
    split
    · omega
    · rename_i passed_by
      apply visited
      rintro rfl
      exact passed_by (decide_eq_true (mem_pathToRoot_self tree index))
  · intro index node at_index choiceless
    rcases (explores.credit ready reward).in_order at_index with ⟨count, order⟩
    simpa [choiceless] using order
  · intro index node at_index choices
    rcases exists_of_at_credit at_index with ⟨old, at_old, rfl⟩
    rw [SearchNode.position_creditIf] at choices
    rw [explores.toLinked.childVisits_credit leaf reward at_old, SearchNode.visits_creditIf,
      explores.sum_children_on_path at_old awaits.bound]
    by_cases here : index = leaf
    · subst here
      rcases awaits.fresh at_old choices with ⟨inner, unvisited, childless⟩
      simp [mem_pathToRoot_self, inner, unvisited, childVisits, childless]
    · rw [awaits.visits_eq at_old here choices]
      simp only [here, ne_eq, not_false_eq_true, and_true, decide_eq_true_eq]
      split <;> omega

/-- One iteration adds one visit to what is conserved. -/
theorem Explores.iterates_conservesVisits [Worded Action] (explores : tree.Explores game start)
    (conserves : tree.ConservesVisits game done) (scorer : ChildScorer) :
    tree.Iterates game scorer start fun next =>
      next.Explores game start ∧ next.ConservesVisits game (done + 1) := by
  refine explores.iterates scorer fun grows reward => ⟨explores.explores_credit grows reward, ?_⟩
  have awaits := grows.awaits explores.toLinked conserves
  exact awaits.credit (grows.explores explores) (grows.ready explores) reward

end SearchTree

variable [DecidableEq Player] [DecidableEq Action] [Worded Action]
  {evaluator : Evaluator Memory Position Player}
  {deadline : Deadline} {valid : Memory → Prop}

/-- What is conserved, every iteration upholds. -/
theorem Evaluator.NeverFails.conserves (neverFails : evaluator.NeverFails valid)
    (scorer : ChildScorer) (start : Position) :
    IterationUpholds game evaluator scorer (evaluator.Overflows game start valid)
      fun done tree memory =>
        valid memory ∧ tree.Explores game start ∧ tree.ConservesVisits game done :=
  neverFails.onlyOverflows.iterationUpholds fun _ _ holds =>
    holds.1.iterates_conservesVisits holds.2 scorer

/-- A search performs as many iterations as its limit and its deadline allow, scores one position
in each of them, and the visits in its tree are those of its iterations. It fails only if a position
that play leads to has a score too large for a double. A scorer here computes from its arguments
alone. -/
theorem monteCarlo_conservesVisits {maxIterations : Option Int} {count : Nat}
    (neverFails : evaluator.NeverFails valid)
    (counted : iterationCount deadline maxIterations = some count) {memory : Memory}
    (fit : valid memory) (trail : Trail Position) (player : Player) (start : Position) :
    (monteCarlo game evaluator deadline scorer maxIterations player start).ComesTo (.start memory)
        (fun tree after => tree.ConservesVisits game count ∧
          after.notes = #[iterationNote scorer tree count])
        (fun fault => fault = .integerTooLarge ∧ evaluator.Overflows game start valid) ∧
      (monteCarlo game evaluator.recorded deadline scorer maxIterations player start).ComesTo
        (.start (memory, trail))
        (fun tree after => tree.ConservesVisits game count ∧
          after.memory.2.scored.length = trail.scored.length + count)
        fun fault => fault = .integerTooLarge ∧ evaluator.Overflows game start valid := by
  have upholds : IterationUpholds game evaluator scorer _ _ := neverFails.conserves scorer start
  have holds := And.intro (SearchTree.explores_ofRoot game start player)
    (SearchTree.conservesVisits_ofRoot game start player)
  have restarted := neverFails.startSearch memory fit
  constructor
  · refine (monteCarlo_performs upholds counted ⟨restarted, holds⟩).mono ?_
    rintro tree after ⟨⟨-, -, conserves⟩, notes⟩
    exact ⟨conserves, notes⟩
  · refine (monteCarlo_performs (upholds.recorded trail.scored.length) counted ?_).mono ?_
    · exact ⟨⟨restarted, holds⟩, rfl⟩
    · rintro tree after ⟨⟨⟨-, -, conserves⟩, length_eq⟩, -⟩
      exact ⟨conserves, length_eq⟩

/-- A deadline that passes at the sixth question leaves five out of eight iterations. -/
theorem monteCarlo_conservesVisits_nim :
    let start : Nim.Position := ⟨[2, 1], .one, none, false, by simp, by simp⟩
    let scorer := ChildScorer.uct1 (.real 1)
    let evaluator := Gauge.evaluator Nim.game
    let overflows := evaluator.Overflows Nim.game start (· = Nim.winLoss)
    evaluator.NeverFails (· = Nim.winLoss) ∧
      iterationCount (.atCheck 6) (some 8) = some 5 ∧
      (monteCarlo Nim.game evaluator (.atCheck 6) scorer (some 8) .one start).ComesTo
        (.start Nim.winLoss) (fun tree after => tree.ConservesVisits Nim.game 5 ∧
          after.notes = #[iterationNote scorer tree 5])
        (fun fault => fault = .integerTooLarge ∧ overflows) ∧
      (monteCarlo Nim.game evaluator.recorded (.atCheck 6) scorer (some 8) .one start).ComesTo
        (.start (Nim.winLoss, ⟨[], 0⟩)) (fun tree after =>
          tree.ConservesVisits Nim.game 5 ∧ after.memory.2.scored.length = 5)
        fun fault => fault = .integerTooLarge ∧ overflows := by
  intro start scorer evaluator overflows
  exact ⟨Nim.neverFails_winLoss, rfl,
    monteCarlo_conservesVisits Nim.neverFails_winLoss rfl rfl ⟨[], 0⟩ .one start⟩

/-- The first iteration wins the game at once, and its reward breaks the search off. -/
theorem monteCarlo_conservesVisits_heavy :
    let start : Nim.Position := ⟨[1], .one, none, false, by simp, by simp⟩
    let evaluator := Gauge.evaluator Nim.game
    evaluator.NeverFails (· = Nim.heavyWinLoss) ∧
      iterationCount .never (some 1) = some 1 ∧
      ((monteCarlo Nim.game evaluator .never (.uct1 (.real 1)) (some 1) .one start).run.run
        (.start Nim.heavyWinLoss)).1 = .error .integerTooLarge ∧
      ¬(monteCarlo Nim.game evaluator .never (.uct1 (.real 1)) (some 1) .one start).Returns
        (.start Nim.heavyWinLoss) fun tree _ => tree.ConservesVisits Nim.game 1 := by
  intro start evaluator
  have failed : ((monteCarlo Nim.game evaluator .never (.uct1 (.real 1)) (some 1) .one
      start).run.run (.start Nim.heavyWinLoss)).1 = .error .integerTooLarge :=
    SearchM.result_eq_error (by decide +kernel)
  refine ⟨Nim.neverFails_heavyWinLoss, rfl, failed, ?_⟩
  rintro ⟨tree, after, ran, -⟩
  rw [ran] at failed
  cases failed

end GameSearch
