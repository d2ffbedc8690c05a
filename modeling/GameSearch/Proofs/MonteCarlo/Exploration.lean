import GameSearch.Nim.Evaluators
import GameSearch.Proofs.Contest.Line
import GameSearch.Proofs.MonteCarlo.Descent
import GameSearch.Proofs.MonteCarlo.Iterations

/-!
# What a tree search explores

Every iteration of Monte Carlo tree search keeps the tree in order: children stand for the distinct
legal actions in the order of their enumeration, with the positions they lead to, and a child is
visited again only once all its siblings are there. Whatever the scorer, the evaluator and the
deadline do, the tree of a search has this order.

A line of play leads to every position that is scored. If one of them has a score that is too large
for a double, the search may fail, and this is all that an evaluator that never fails can do to it.
-/

namespace GameSearch

variable {Memory Position Player Action : Type} [DecidableEq Action]
  {game : Game Position Player Action} {scorer : ChildScorer}

namespace SearchTree

variable {tree next : SearchTree Position Player Action} {start position : Position}
  {index leaf parent : Nat} {node : SearchNode Position Player Action} {side : Player}
  {action : Action}

/-- Whether a tree has been explored from a starting position, action by action. -/
structure Explores (tree : SearchTree Position Player Action) (game : Game Position Player Action)
    (start : Position) : Prop extends tree.Linked where
  /-- The root is the starting position of the searching player. -/
  at_root : ∀ {node : SearchNode Position Player Action}, tree.nodes[0]? = some node →
    node.position = start ∧ node.side = tree.player
  /-- A node's position is where its action leads from its parent, and its side is who acted there.
  -/
  played : ∀ {index parent : Nat} {node parentNode : SearchNode Position Player Action},
    tree.nodes[index]? = some node → node.parent = some parent →
      tree.nodes[parent]? = some parentNode →
        game.status parentNode.position = .turn node.side ∧ ∃ action, node.action = some action ∧
          game.play parentNode.position node.side action = .ok node.position
  /-- The children of a node are the first few choices there, in order. -/
  in_order : ∀ {index : Nat} {node : SearchNode Position Player Action},
    tree.nodes[index]? = some node →
      ∃ count, node.children.map (·.1) = (game.choices node.position).take count
  /-- A child is visited again only if all choices are children. -/
  revisited : ∀ {index child : Nat} {node childNode : SearchNode Position Player Action}
    {action : Action}, tree.nodes[index]? = some node → (action, child) ∈ node.children →
      tree.nodes[child]? = some childNode → 1 < childNode.visits → node.IsExpanded game
  /-- Rewards are summed as doubles. -/
  floating : tree.Floating

theorem explores_ofRoot (game : Game Position Player Action) (start : Position) (player : Player) :
    (ofRoot start player : SearchTree Position Player Action).Explores game start := by
  constructor
  · exact Linked.ofRoot start player
  · intro node at_root
    rcases of_at_ofRoot at_root with ⟨-, rfl⟩
    exact ⟨rfl, rfl⟩
  · intro index parent node parentNode at_index parent_eq
    rcases of_at_ofRoot at_index with ⟨-, rfl⟩
    cases parent_eq
  · intro index node at_index
    rcases of_at_ofRoot at_index with ⟨-, rfl⟩
    exact ⟨0, by simp [SearchNode.fresh]⟩
  · intro index child node childNode action at_index mem
    rcases of_at_ofRoot at_index with ⟨-, rfl⟩
    cases mem
  · exact floating_ofRoot start player

theorem Explores.attach (explores : tree.Explores game start)
    (at_index : tree.nodes[index]? = some node) (turn : game.status node.position = .turn side)
    (untried : (game.choices node.position).find? (· ∉ node.children.map (·.1)) = some action)
    (played : game.play node.position side action = .ok position)
    (attaches : tree.Attaches next index action position side) : next.Explores game start := by
  constructor
  · exact attaches.linked explores.toLinked
  · intro root at_root
    rcases attaches.new_or_old at_root with ⟨empty, -⟩ | ⟨old, at_old, rfl⟩
    · have := tree.nonempty
      omega
    · rcases explores.at_root at_old with ⟨position_eq, side_eq⟩
      exact ⟨position_eq, side_eq.trans attaches.player_eq.symm⟩
  · intro child parent childNode parentNode at_child parent_eq at_parent
    rcases attaches.new_or_old at_child with ⟨rfl, rfl⟩ | ⟨old, at_old, rfl⟩
    · rcases Option.some.inj parent_eq with rfl
      rw [attaches.at_of_at at_index] at at_parent
      rcases Option.some.inj at_parent with rfl
      exact ⟨turn, action, rfl, played⟩
    · rcases explores.of_parent at_old parent_eq with ⟨-, oldParent, -, at_oldParent, -⟩
      rw [attaches.at_of_at at_oldParent] at at_parent
      rcases Option.some.inj at_parent with rfl
      have known := explores.played at_old parent_eq at_oldParent
      exact known
  · intro other otherNode at_other
    rcases attaches.new_or_old at_other with ⟨rfl, rfl⟩ | ⟨old, at_old, rfl⟩
    · exact ⟨0, by simp [SearchNode.fresh]⟩
    · rcases explores.in_order at_old with ⟨count, order⟩
      by_cases here : other = index
      · subst here
        rcases Option.some.inj (at_old.symm.trans at_index) with rfl
        rw [order, find?_not_mem_take Game.nodup_choices] at untried
        refine ⟨count + 1, ?_⟩
        simp [SearchNode.attachIf, order, List.take_add_one, untried]
      · exact ⟨count, by simpa [SearchNode.attachIf, here] using order⟩
  · intro other child otherNode childNode taken at_other mem at_child visited
    rcases attaches.new_or_old at_other with ⟨rfl, rfl⟩ | ⟨old, at_old, rfl⟩
    · cases mem
    · apply SearchNode.IsExpanded.attachIf
      rcases attaches.new_or_old at_child with ⟨rfl, rfl⟩ | ⟨oldChild, at_oldChild, rfl⟩
      · simp [SearchNode.fresh] at visited
      · rcases SearchNode.mem_children_attachIf.mp mem with known | ⟨-, same⟩
        · exact explores.revisited at_old known at_oldChild visited
        · rw [Prod.mk.injEq] at same
          have bound := (Array.getElem?_eq_some_iff.mp at_oldChild).1
          omega
  · exact attaches.floating explores.floating

theorem Grows.explores (grows : tree.Grows game next leaf position)
    (explores : tree.Explores game start) : next.Explores game start := by
  cases grows with
  | stays at_index above choiceless => exact explores
  | attaches at_index above turn untried played attaches =>
      exact explores.attach at_index turn untried played attaches

/-- Whether a reward can be counted at a node: on the way to the root every node is new, or all its
siblings are there. -/
def Ready (tree : SearchTree Position Player Action) (game : Game Position Player Action)
    (leaf : Nat) : Prop :=
  ∀ passed ∈ tree.pathToRoot leaf, ∀ (node parentNode : SearchNode Position Player Action)
    (parent : Nat), tree.nodes[passed]? = some node → node.parent = some parent →
      tree.nodes[parent]? = some parentNode → node.visits ≤ 0 ∨ parentNode.IsExpanded game

theorem Grows.ready (grows : tree.Grows game next leaf position)
    (explores : tree.Explores game start) : next.Ready game leaf := by
  cases grows with
  | stays at_index above choiceless =>
      intro passed mem node parentNode parent at_passed parent_eq at_parent
      exact .inr (above passed mem node parentNode parent at_passed parent_eq at_parent)
  | attaches at_index above turn untried played attaches =>
      intro passed mem node parentNode parent at_passed parent_eq at_parent
      rw [attaches.pathToRoot_new] at mem
      rcases attaches.new_or_old at_passed with ⟨rfl, rfl⟩ | ⟨old, at_old, rfl⟩
      · exact .inl le_rfl
      · right
        have bound := (Array.getElem?_eq_some_iff.mp at_old).1
        rcases List.mem_cons.mp mem with rfl | later
        · omega
        · rcases explores.of_parent at_old parent_eq with ⟨-, oldParent, -, at_oldParent, -⟩
          rw [attaches.at_of_at at_oldParent] at at_parent
          rcases Option.some.inj at_parent with rfl
          have expanded := above passed later old oldParent parent at_old parent_eq at_oldParent
          exact expanded.attachIf _ _ _

/-- A line of play leads to every node of an explored tree, and it is no longer than the number of
the node. -/
theorem Explores.exists_line (explores : tree.Explores game start)
    (at_index : tree.nodes[index]? = some node) :
    ∃ history, game.Line start history node.position ∧ history.length ≤ index := by
  induction index using Nat.strongRecOn generalizing node with
  | ind index ih =>
      cases parent_eq : node.parent with
      | none =>
          have root := (explores.orphan_iff at_index).mp parent_eq
          subst root
          rw [(explores.at_root at_index).1]
          exact ⟨[], .start, le_rfl⟩
      | some parent =>
          rcases explores.of_parent at_index parent_eq with ⟨lower, parentNode, -, at_parent, -⟩
          rcases explores.played at_index parent_eq at_parent with ⟨turn, action, -, played⟩
          rcases ih parent lower at_parent with ⟨history, line, short⟩
          refine ⟨_, line.turn turn played, ?_⟩
          rw [List.length_append, List.length_singleton]
          omega

/-- What an iteration scores is no further from the start than the tree has nodes, and at most one
node is added. -/
theorem Grows.exists_line (grows : tree.Grows game next leaf position)
    (explores : tree.Explores game start) :
    (∃ history, game.Line start history position ∧ history.length ≤ tree.size) ∧
      next.size ≤ tree.size + 1 := by
  cases grows with
  | stays at_index =>
      rcases explores.exists_line at_index with ⟨history, line, short⟩
      have bound := (Array.getElem?_eq_some_iff.mp at_index).1
      exact ⟨⟨history, line, short.trans bound.le⟩, Nat.le_succ _⟩
  | attaches at_index above turn untried played attaches =>
      rcases explores.exists_line at_index with ⟨history, line, short⟩
      have bound := (Array.getElem?_eq_some_iff.mp at_index).1
      refine ⟨⟨_, line.turn turn played, ?_⟩, attaches.size_eq.le⟩
      rw [List.length_append, List.length_singleton, size]
      omega

theorem Grows.leaf_lt (grows : tree.Grows game next leaf position) :
    leaf < next.nodes.size := by
  cases grows with
  | stays at_index => exact (Array.getElem?_eq_some_iff.mp at_index).1
  | attaches at_index above turn untried played attaches =>
      exact (Array.getElem?_eq_some_iff.mp attaches.at_new).1

variable [DecidableEq Player]

theorem Explores.credit (explores : tree.Explores game start) (ready : tree.Ready game leaf)
    (reward : Number) : (tree.credit leaf reward).Explores game start := by
  constructor
  · exact explores.toLinked.credit leaf reward
  · intro root at_root
    rcases exists_of_at_credit at_root with ⟨old, at_old, rfl⟩
    rw [SearchNode.position_creditIf, SearchNode.side_creditIf, player_credit]
    exact explores.at_root at_old
  · intro index parent node parentNode at_index parent_eq at_parent
    rcases exists_of_at_credit at_index with ⟨old, at_old, rfl⟩
    rcases exists_of_at_credit at_parent with ⟨oldParent, at_oldParent, rfl⟩
    rw [SearchNode.parent_creditIf] at parent_eq
    simp only [SearchNode.position_creditIf, SearchNode.side_creditIf, SearchNode.action_creditIf]
    exact explores.played at_old parent_eq at_oldParent
  · intro index node at_index
    rcases exists_of_at_credit at_index with ⟨old, at_old, rfl⟩
    rw [SearchNode.position_creditIf, SearchNode.children_creditIf]
    exact explores.in_order at_old
  · intro index child node childNode action at_index mem at_child visited
    rcases exists_of_at_credit at_index with ⟨old, at_old, rfl⟩
    rcases exists_of_at_credit at_child with ⟨oldChild, at_oldChild, rfl⟩
    rw [SearchNode.children_creditIf] at mem
    rw [SearchNode.isExpanded_creditIf]
    rw [SearchNode.visits_creditIf] at visited
    split at visited
    · rename_i counted
      rcases explores.of_child at_old mem with ⟨same, at_same, parent_eq, -⟩
      rcases Option.some.inj (at_same.symm.trans at_oldChild) with rfl
      rcases ready child (of_decide_eq_true counted) _ _ _ at_same parent_eq at_old with
        fresh | expanded
      · omega
      · exact expanded
    · exact explores.revisited at_old mem at_oldChild visited
  · exact explores.floating.credit leaf reward

/-- Whether an iteration of a search from a position grows a tree, scores a position that play leads
to and upholds something, whatever reward is credited. -/
def Iterates [Worded Action] (tree : SearchTree Position Player Action)
    (game : Game Position Player Action) (scorer : ChildScorer) (start : Position)
    (upheld : SearchTree Position Player Action → Prop) : Prop :=
  ∃ next leaf position, tree.grow game scorer = .ok (next, leaf, position) ∧
    (∃ history, game.Line start history position) ∧ next.Floating ∧ leaf < next.nodes.size ∧
      ∀ reward, upheld (next.credit leaf reward)

/-- What growing and crediting uphold, an iteration upholds. -/
theorem Explores.iterates [Worded Action] (explores : tree.Explores game start)
    (scorer : ChildScorer) {upheld : SearchTree Position Player Action → Prop}
    (kept : ∀ {next leaf position}, tree.Grows game next leaf position →
      ∀ reward, upheld (next.credit leaf reward)) : tree.Iterates game scorer start upheld := by
  rcases explores.toLinked.grows game scorer with ⟨next, leaf, position, grown, grows⟩
  rcases (grows.exists_line explores).1 with ⟨history, line, -⟩
  exact ⟨next, leaf, position, grown, ⟨history, line⟩, (grows.explores explores).floating,
    grows.leaf_lt, kept grows⟩

/-- An iteration keeps the tree in order. -/
theorem Explores.explores_credit (explores : tree.Explores game start)
    (grows : tree.Grows game next leaf position) (reward : Number) :
    (next.credit leaf reward).Explores game start :=
  (grows.explores explores).credit (grows.ready explores) reward

end SearchTree

variable [DecidableEq Player] [Worded Action] {evaluator : Evaluator Memory Position Player}
  {deadline : Deadline} {valid : Memory → Prop} {effort : Effort Memory} {start : Position}
  {invariant : Nat → SearchTree Position Player Action → Prop}

/-- Whether an evaluator with a valid memory gives some position that play leads to a score too large
for a double, or fails there because an integer is. -/
def Evaluator.Overflows (evaluator : Evaluator Memory Position Player)
    (game : Game Position Player Action) (start : Position) (valid : Memory → Prop) : Prop :=
  ∃ history position side memory, game.Line start history position ∧ valid memory ∧
    ((evaluator.score position side memory).1 >>= Number.asDouble) = .error .integerTooLarge

/-- With an evaluator that does not fail otherwise, the tree alone decides what an iteration
upholds. -/
theorem Evaluator.OnlyOverflows.iterationUpholds (onlyOverflows : evaluator.OnlyOverflows valid)
    (step : ∀ done tree, invariant done tree →
      tree.Iterates game scorer start (invariant (done + 1))) :
    IterationUpholds game evaluator scorer (evaluator.Overflows game start valid)
      fun done tree memory => valid memory ∧ invariant done tree := by
  rintro done tree memory ⟨fit, holds⟩
  rcases step done tree holds with
    ⟨next, leaf, position, grown, ⟨history, line⟩, floating, bound, kept⟩
  refine ⟨next, leaf, position, grown, ?_⟩
  rcases onlyOverflows.score position next.player memory fit with
    ⟨reward, after, scored, fitAfter⟩ | unscored
  · cases fits : reward.fits with
    | true =>
        exact .inl ⟨reward, after, _, scored, floating.backup_eq bound fits, fitAfter, kept reward⟩
    | false =>
        have refused := floating.backup_of_not_fits bound fits
        refine .inr ⟨.inr ⟨reward, after, scored, refused⟩, history, position, next.player, memory,
          line, fit, ?_⟩
        rw [scored]
        exact Number.asDouble_of_not_fits fits
  · refine .inr ⟨.inl unscored, history, position, next.player, memory, line, fit, ?_⟩
    rw [unscored]
    rfl

/-- What every iteration upholds holds of the tree of a search, which fails only if a score is too
large. -/
theorem monteCarlo_upholds {maxIterations : Option Int} {bound : Nat} {player : Player}
    (onlyOverflows : evaluator.OnlyOverflows valid)
    (bounded : iterationBound deadline maxIterations = some bound)
    (step : ∀ done tree, invariant done tree →
      tree.Iterates game scorer start (invariant (done + 1)))
    (fit : valid effort.memory) (holds : invariant 0 (.ofRoot start player)) :
    (monteCarlo game evaluator deadline scorer maxIterations player start).ComesTo effort
      (fun tree after => valid after.memory ∧ ∃ done, invariant done tree)
      fun fault => fault = .integerTooLarge ∧ evaluator.Overflows game start valid := by
  refine (monteCarlo_iterates (onlyOverflows.iterationUpholds step) bounded
    ⟨onlyOverflows.startSearch _ fit, holds⟩).mono ?_
  rintro tree after ⟨count, -, ⟨kept, holds⟩, -⟩
  exact ⟨kept, count, holds⟩

/-- The tree of a search is explored in order, whatever the scorer, the evaluator and the deadline
do. So the walk from each of its nodes follows the parents down to the root, and every descent
through it comes to an end, with this scorer or any other. There is no tree only if a position that
play leads to has a score too large for a double. A scorer here computes from its arguments alone. -/
theorem monteCarlo_explores {maxIterations : Option Int} {bound : Nat}
    (neverFails : evaluator.NeverFails valid)
    (bounded : iterationBound deadline maxIterations = some bound) (fit : valid effort.memory)
    (player : Player) (start : Position) :
    (monteCarlo game evaluator deadline scorer maxIterations player start).ComesTo effort
      (fun tree _ => tree.player = player ∧ tree.Explores game start ∧ tree.ChildrenDisjoint ∧
        tree.Navigable game)
      fun fault => fault = .integerTooLarge ∧ evaluator.Overflows game start valid := by
  have step : ∀ (done : Nat) (tree : SearchTree Position Player Action),
      tree.player = player ∧ tree.Explores game start →
        tree.Iterates game scorer start fun next =>
          next.player = player ∧ next.Explores game start := by
    rintro done tree ⟨player_eq, explores⟩
    refine explores.iterates scorer fun grows reward => ⟨?_, ?_⟩
    · rw [SearchTree.player_credit, grows.player_eq, player_eq]
    · exact explores.explores_credit grows reward
  have searched := monteCarlo_upholds neverFails.onlyOverflows bounded step fit
    ⟨rfl, SearchTree.explores_ofRoot game start player⟩
  refine searched.mono ?_
  rintro tree after ⟨-, -, player_eq, explores⟩
  exact ⟨player_eq, explores, explores.toLinked.childrenDisjoint, explores.toLinked.navigable game⟩

theorem Nim.neverFails_winLoss : (Gauge.evaluator Nim.game).NeverFails (· = Nim.winLoss) := by
  constructor
  · rintro _ rfl
    rfl
  · rintro position side _ rfl
    exact ⟨_, _, rfl, rfl⟩

/-- Wins and losses with the least weight that is too large for a double. -/
def Nim.heavyWinLoss : Gauge Nim.Position Nim.Player :=
  .plus .empty (.int Number.overflow) Nim.winLoss

theorem Nim.neverFails_heavyWinLoss :
    (Gauge.evaluator Nim.game).NeverFails (· = Nim.heavyWinLoss) := by
  constructor
  · rintro _ rfl
    rfl
  · rintro position side _ rfl
    exact ⟨_, _, rfl, rfl⟩

/-- The same for eight iterations from a pile of two and a pile of one. -/
theorem monteCarlo_explores_nim :
    let start : Nim.Position := ⟨[2, 1], .one, none, false, by simp, by simp⟩
    let evaluator := Gauge.evaluator Nim.game
    evaluator.NeverFails (· = Nim.winLoss) ∧ iterationBound .never (some 8) = some 8 ∧
      (monteCarlo Nim.game evaluator .never (.uct1 (.real 1)) (some 8) .one start).ComesTo
        (.start Nim.winLoss) (fun tree _ => tree.player = .one ∧ tree.Explores Nim.game start ∧
          tree.ChildrenDisjoint ∧ tree.Navigable Nim.game)
        fun fault => fault = .integerTooLarge ∧
          evaluator.Overflows Nim.game start (· = Nim.winLoss) := by
  intro start evaluator
  exact ⟨Nim.neverFails_winLoss, rfl, monteCarlo_explores Nim.neverFails_winLoss rfl rfl .one start⟩

end GameSearch
