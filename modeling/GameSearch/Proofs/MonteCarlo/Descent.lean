import GameSearch.MonteCarlo.Search
import GameSearch.Proofs.MonteCarlo.Arena
import GameSearch.Proofs.MonteCarlo.Untried

/-!
# Descents through a search tree

A descent goes from child to child for as long as every action of a node has been tried, and the
scorer only decides which child is next. In a linked tree the numbers grow on the way, so every
descent comes to an end, and it passes through expanded nodes alone.
-/

namespace GameSearch

variable {Position Player Action : Type}

section FirstBest

variable {α β : Type}

theorem firstBest_mem (beats : β → β → Bool) (first : α × β) (rest : List (α × β)) :
    firstBest beats first rest ∈ first :: rest := by
  induction rest generalizing first with
  | nil => exact List.mem_singleton_self first
  | cons next rest ih =>
      rw [firstBest]
      have mem := ih (if beats next.2 first.2 then next else first)
      rcases List.mem_cons.mp mem with same | later
      · rw [same]
        split
        · simp
        · simp
      · exact List.mem_cons_of_mem first (List.mem_cons_of_mem next later)

end FirstBest

namespace SearchTree

variable {tree next : SearchTree Position Player Action} {scorer : ChildScorer}
  {node : SearchNode Position Player Action} {index child : Nat}

theorem bestChild?_eq_none : tree.bestChild? scorer node = none ↔ node.children = [] := by
  have zip_eq_nil : (node.children.map (·.2)).zip
      (scorer.scores node.visits ((node.children.map (·.2)).map tree.standing)) = [] ↔
        node.children = [] := by
    rw [← List.length_eq_zero_iff, List.length_zip, scorer.length_scores]
    simp
  rw [← zip_eq_nil, bestChild?]
  split
  · rename_i empty
    exact iff_of_true rfl empty
  · rename_i first rest nonempty
    exact iff_of_false (Option.some_ne_none _) (nonempty ▸ List.cons_ne_nil first rest)

theorem mem_children_of_bestChild? (best : tree.bestChild? scorer node = some child) :
    ∃ action, (action, child) ∈ node.children := by
  rw [bestChild?] at best
  split at best
  · cases best
  · rename_i first rest scored
    rcases Option.some.inj best with rfl
    have mem := firstBest_mem scoreBeats first rest
    rw [← scored] at mem
    have among := (List.of_mem_zip mem).1
    rcases List.mem_map.mp among with ⟨⟨action, number⟩, entry_mem, same⟩
    exact ⟨action, same ▸ entry_mem⟩

end SearchTree

/-- Whether every distinct action of a node's player to move has been expanded. -/
def SearchNode.IsExpanded (node : SearchNode Position Player Action) [DecidableEq Action]
    (game : Game Position Player Action) : Prop :=
  ∀ action ∈ game.choices node.position, action ∈ node.children.map (·.1)

variable [DecidableEq Action] {game : Game Position Player Action}

theorem SearchNode.IsExpanded.attachIf {node : SearchNode Position Player Action}
    (expanded : node.IsExpanded game) (here : Bool) (action : Action) (child : Nat) :
    (node.attachIf here action child).IsExpanded game := by
  intro choice mem
  have known := expanded choice mem
  cases here with
  | false => exact known
  | true =>
      simp only [SearchNode.attachIf, if_true, List.map_append, List.mem_append]
      exact .inl known

theorem SearchNode.isExpanded_creditIf [DecidableEq Player]
    {node : SearchNode Position Player Action} {counted : Bool} {player : Player}
    {reward : Number} : (node.creditIf counted player reward).IsExpanded game ↔
      node.IsExpanded game := by
  simp only [IsExpanded, position_creditIf, children_creditIf]

namespace SearchTree

variable {tree next : SearchTree Position Player Action} {scorer : ChildScorer}
  {node : SearchNode Position Player Action} {index child : Nat}

/-- A descent from a node and where it ends. Nothing but the tree and the scorer decides where it
goes; in particular, nothing bounds its length. -/
inductive Descends (tree : SearchTree Position Player Action) (game : Game Position Player Action)
    (scorer : ChildScorer) : Nat → Selection Position Player Action → Prop where
  | ended {index : Nat} {node : SearchNode Position Player Action} {winner : Option Player}
      (at_index : tree.nodes[index]? = some node)
      (ended : game.status node.position = .over winner) :
      Descends tree game scorer index (.leaf index node.position)
  | expansion {index : Nat} {node : SearchNode Position Player Action} {side : Player}
      {action : Action} (at_index : tree.nodes[index]? = some node)
      (turn : game.status node.position = .turn side)
      (untried : (game.choices node.position).find? (· ∉ node.children.map (·.1)) = some action) :
      Descends tree game scorer index (.expansion index node.position side action)
  | stuck {index : Nat} {node : SearchNode Position Player Action} {side : Player}
      (at_index : tree.nodes[index]? = some node)
      (turn : game.status node.position = .turn side) (expanded : node.IsExpanded game)
      (childless : node.children = []) :
      Descends tree game scorer index (.leaf index node.position)
  | child {index child : Nat} {node : SearchNode Position Player Action} {side : Player}
      {selection : Selection Position Player Action} (at_index : tree.nodes[index]? = some node)
      (turn : game.status node.position = .turn side) (expanded : node.IsExpanded game)
      (best : tree.bestChild? scorer node = some child)
      (rest : Descends tree game scorer child selection) :
      Descends tree game scorer index selection

/-- In a linked tree every descent comes to an end, and it is the one that the search takes. -/
theorem Linked.descends (linked : tree.Linked)
    (game : Game Position Player Action) (scorer : ChildScorer) (bound : index < tree.nodes.size) :
    tree.Descends game scorer index (tree.select game scorer index bound) := by
  fun_induction select tree game scorer index bound with
  | case1 index bound node winner ended =>
      exact .ended (Array.getElem?_eq_getElem bound) ended
  | case2 index bound node side turn tried action untried =>
      rw [Game.firstUntried_eq turn] at untried
      exact .expansion (Array.getElem?_eq_getElem bound) turn untried
  | case3 index bound node side turn tried untried childless =>
      exact .stuck (Array.getElem?_eq_getElem bound) turn
        ((Game.firstUntried_eq_none turn).mp untried) (bestChild?_eq_none.mp childless)
  | case4 index bound node side turn tried untried child best step ih =>
      exact .child (Array.getElem?_eq_getElem bound) turn
        ((Game.firstUntried_eq_none turn).mp untried) best ih
  | case5 index bound node side turn tried untried child best leap =>
      rcases mem_children_of_bestChild? best with ⟨action, mem⟩
      exact absurd (linked.lt_of_mem_children (Array.getElem?_eq_getElem bound) mem) leap

/-- Whether the walk from every node leads down to the root and every descent comes to an end. -/
structure Navigable (tree : SearchTree Position Player Action)
    (game : Game Position Player Action) : Prop where
  climbs : ∀ index, index < tree.nodes.size → tree.Climbs index (tree.pathToRoot index)
  falls : ∀ index, index < tree.nodes.size → (tree.pathToRoot index).Pairwise (· > ·)
  ends_at_root : ∀ index, index < tree.nodes.size → (tree.pathToRoot index).getLast? = some 0
  descends : ∀ (policy : ChildScorer) (index : Nat) (bound : index < tree.nodes.size),
    tree.Descends game policy index (tree.select game policy index bound)

theorem Linked.navigable (linked : tree.Linked) (game : Game Position Player Action) :
    tree.Navigable game where
  climbs _ bound := (linked.climbs bound).1
  falls _ _ := pairwise_pathToRoot
  ends_at_root _ bound := (linked.climbs bound).2
  descends policy _ bound := linked.descends game policy bound

/-- Whether every proper ancestor of a node is expanded. -/
def ExpandedAbove (tree : SearchTree Position Player Action) (game : Game Position Player Action)
    (index : Nat) : Prop :=
  ∀ passed ∈ tree.pathToRoot index, ∀ (node parentNode : SearchNode Position Player Action)
    (parent : Nat), tree.nodes[passed]? = some node → node.parent = some parent →
      tree.nodes[parent]? = some parentNode → parentNode.IsExpanded game

theorem Linked.expandedAbove_root (linked : tree.Linked) (game : Game Position Player Action) :
    tree.ExpandedAbove game 0 := by
  intro passed mem node parentNode parent at_passed parent_eq
  rcases Nat.le_zero.mp (le_of_mem_pathToRoot mem) with rfl
  rw [(linked.orphan_iff at_passed).mpr rfl] at parent_eq
  cases parent_eq

theorem Linked.expandedAbove_child {action : Action} (linked : tree.Linked)
    (at_index : tree.nodes[index]? = some node) (mem : (action, child) ∈ node.children)
    (expanded : node.IsExpanded game) (above : tree.ExpandedAbove game index) :
    tree.ExpandedAbove game child := by
  intro passed passed_mem passedNode parentNode parent at_passed parent_eq at_parent
  rw [linked.pathToRoot_of_mem_children at_index mem] at passed_mem
  rcases List.mem_cons.mp passed_mem with rfl | later
  · rcases linked.of_child at_index mem with ⟨childNode, at_child, childParent, -⟩
    rcases Option.some.inj (at_child.symm.trans at_passed) with rfl
    rcases Option.some.inj (childParent.symm.trans parent_eq) with rfl
    rcases Option.some.inj (at_index.symm.trans at_parent) with rfl
    exact expanded
  · exact above passed later passedNode parentNode parent at_passed parent_eq at_parent

/-- What growing a tree by one iteration does, and which node with which position is scored then. -/
inductive Grows (tree : SearchTree Position Player Action) (game : Game Position Player Action) :
    SearchTree Position Player Action → Nat → Position → Prop where
  /-- There is nothing to expand where the descent ends. -/
  | stays {index : Nat} {node : SearchNode Position Player Action}
      (at_index : tree.nodes[index]? = some node) (above : tree.ExpandedAbove game index)
      (choiceless : game.choices node.position = []) :
      Grows tree game tree index node.position
  /-- The first untried action is expanded. -/
  | attaches {index : Nat} {node : SearchNode Position Player Action}
      {next : SearchTree Position Player Action} {side : Player} {action : Action}
      {position : Position} (at_index : tree.nodes[index]? = some node)
      (above : tree.ExpandedAbove game index) (turn : game.status node.position = .turn side)
      (untried : (game.choices node.position).find? (· ∉ node.children.map (·.1)) = some action)
      (played : game.play node.position side action = .ok position)
      (attaches : tree.Attaches next index action position side) :
      Grows tree game next tree.nodes.size position

theorem Grows.player_eq {leaf : Nat} {position : Position}
    (grows : tree.Grows game next leaf position) : next.player = tree.player := by
  cases grows with
  | stays => rfl
  | attaches at_index above turn untried played attaches => exact attaches.player_eq

variable [Worded Action]

theorem Descends.grows {selection : Selection Position Player Action}
    (descends : tree.Descends game scorer index selection) (linked : tree.Linked)
    (above : tree.ExpandedAbove game index)
    (selected : tree.select game scorer 0 tree.nonempty = selection) :
    ∃ next leaf position, tree.grow game scorer = .ok (next, leaf, position) ∧
      tree.Grows game next leaf position := by
  induction descends with
  | ended at_index ended =>
      refine ⟨tree, _, _, ?_, .stays at_index above (Game.choices_of_over ended)⟩
      simp only [grow, selected]
  | stuck at_index turn expanded childless =>
      refine ⟨tree, _, _, ?_, .stays at_index above ?_⟩
      · simp only [grow, selected]
      · apply List.eq_nil_iff_forall_not_mem.mpr
        intro action mem
        simpa [childless] using expanded action mem
  | @expansion index node side action at_index turn untried =>
      have legal := (Game.mem_choices turn).mp (List.mem_of_find?_eq_some untried)
      have new_action : node.child? action = none := by
        rw [SearchNode.child?_eq_none]
        simpa using List.find?_some untried
      rcases (game.play_isOk _ _ _).mpr legal with ⟨position, played⟩
      rcases exists_attaches at_index new_action position side with ⟨next, added, attaches⟩
      refine ⟨next, _, position, ?_, .attaches at_index above turn untried played attaches⟩
      simp only [grow, selected, played, added, Except.bind, bind, pure, Except.pure]
  | child at_index turn expanded best rest ih =>
      rcases mem_children_of_bestChild? best with ⟨action, mem⟩
      exact ih (linked.expandedAbove_child at_index mem expanded above) selected

theorem Linked.grows (linked : tree.Linked) (game : Game Position Player Action)
    (scorer : ChildScorer) : ∃ next leaf position,
      tree.grow game scorer = .ok (next, leaf, position) ∧ tree.Grows game next leaf position :=
  (linked.descends game scorer tree.nonempty).grows linked (linked.expandedAbove_root game) rfl

end SearchTree

end GameSearch
