import GameSearch.MonteCarlo.Tree
import Mathlib.Order.Nat

/-!
# Links between the nodes of a search tree

Two operations change a search tree: attaching a child and backing up a reward. Each has one lemma
that says what becomes of every node. Parents and children refer to each other, and parents have
smaller numbers, so that the walk from a node to the root follows the parents down to the root
itself.

The rewards of a node are summed as a double. A reward that has a double is therefore credited to
every node of a walk, and any other is refused by the first node already.
-/

namespace GameSearch

variable {Position Player Action : Type}

namespace SearchNode

variable {node : SearchNode Position Player Action}

section Attach

variable {action other : Action} {child found : Nat} {here : Bool}

/-- A node after a child was attached to it or to another node. -/
def attachIf (node : SearchNode Position Player Action) (here : Bool) (action : Action)
    (child : Nat) : SearchNode Position Player Action :=
  { node with children := if here then node.children ++ [(action, child)] else node.children }

theorem mem_children_attachIf {entry : Action × Nat} :
    entry ∈ (node.attachIf here action child).children ↔
      entry ∈ node.children ∨ here = true ∧ entry = (action, child) := by
  cases here <;> simp [attachIf]

variable [DecidableEq Action]

theorem child?_eq_none : node.child? action = none ↔ action ∉ node.children.map (·.1) := by
  simp only [child?, Option.map_eq_none_iff, List.find?_eq_none, List.mem_map, not_exists, not_and,
    decide_eq_true_eq]

theorem child?_attachIf (known : node.child? other = some found) :
    (node.attachIf here action child).child? other = some found := by
  cases here with
  | false => exact known
  | true =>
      rcases Option.map_eq_some_iff.mp known with ⟨entry, first, rfl⟩
      simp [child?, attachIf, List.find?_append, first]

theorem child?_attachIf_new (new_action : node.child? action = none) :
    (node.attachIf true action child).child? action = some child := by
  rw [child?, Option.map_eq_none_iff] at new_action
  simp [child?, attachIf, List.find?_append, new_action]

end Attach

section Visit

/-- Whether the rewards of a node are summed as a double. -/
def Floating (node : SearchNode Position Player Action) : Prop :=
  ∃ total, node.reward = .real total

variable {counted : Bool} {player : Player} {reward : Number}

theorem plus_eq (floating : node.Floating) (fits : reward.fits) :
    node.reward.plus reward = .ok (.real (node.reward.toFloat + reward.toFloat)) := by
  rcases floating with ⟨total, sum⟩
  rw [sum]
  cases reward <;> simp only [Number.plus, Number.asDouble, fits, if_true] <;> rfl

variable [DecidableEq Player]

/-- A node after a reward that has been added as a double. -/
def credit (node : SearchNode Position Player Action) (player : Player) (reward : Number) :
    SearchNode Position Player Action :=
  { node with
    visits := node.visits + 1
    reward := .real (node.reward.toFloat +
      (if node.side = player then reward else -reward).toFloat) }

theorem visit_eq (floating : node.Floating) (fits : reward.fits) :
    node.visit player reward = (.ok (), node.credit player reward) := by
  have share : (if node.side = player then reward else -reward).fits = true := by
    split
    · exact fits
    · rwa [Number.fits_neg]
  rw [visit, plus_eq floating share]
  rfl

theorem visit_of_not_fits (player : Player) (floating : node.Floating)
    (huge : reward.fits = false) :
    (node.visit player reward).1 = .error .integerTooLarge := by
  have share : (if node.side = player then reward else -reward).fits = false := by
    split
    · exact huge
    · rwa [Number.fits_neg]
  rcases floating with ⟨total, sum⟩
  rw [visit, sum]
  generalize (if node.side = player then reward else -reward) = given at share
  cases given with
  | int value => simp only [Number.plus, Number.asDouble, share]; rfl
  | real value => cases share

/-- A node after a reward that may be credited to it. -/
def creditIf (node : SearchNode Position Player Action) (counted : Bool) (player : Player)
    (reward : Number) : SearchNode Position Player Action :=
  if counted then node.credit player reward else node

@[simp]
theorem creditIf_false : node.creditIf false player reward = node := rfl

@[simp]
theorem creditIf_true : node.creditIf true player reward = node.credit player reward := rfl

@[simp]
theorem position_creditIf : (node.creditIf counted player reward).position = node.position := by
  cases counted <;> rfl

@[simp]
theorem side_creditIf : (node.creditIf counted player reward).side = node.side := by
  cases counted <;> rfl

@[simp]
theorem parent_creditIf : (node.creditIf counted player reward).parent = node.parent := by
  cases counted <;> rfl

@[simp]
theorem action_creditIf : (node.creditIf counted player reward).action = node.action := by
  cases counted <;> rfl

@[simp]
theorem children_creditIf : (node.creditIf counted player reward).children = node.children := by
  cases counted <;> rfl

theorem visits_creditIf : (node.creditIf counted player reward).visits =
    if counted then node.visits + 1 else node.visits := by
  cases counted <;> rfl

end Visit

end SearchNode

namespace SearchTree

variable {tree next : SearchTree Position Player Action} {index parent child : Nat}
  {node : SearchNode Position Player Action} {position : Position} {side : Player}
  {action : Action}

theorem at_zero (tree : SearchTree Position Player Action) : tree.nodes[0]? = some tree.root :=
  Array.getElem?_eq_getElem tree.nonempty

section Walk

theorem pathToRoot_of_parent (at_index : tree.nodes[index]? = some node)
    (parent_eq : node.parent = some parent) (lower : parent < index) :
    tree.pathToRoot index = index :: tree.pathToRoot parent := by
  rw [pathToRoot]
  simp [at_index, parent_eq, lower]

theorem pathToRoot_of_orphan (at_index : tree.nodes[index]? = some node)
    (orphan : node.parent = none) : tree.pathToRoot index = [index] := by
  rw [pathToRoot]
  simp [at_index, orphan]

theorem le_of_mem_pathToRoot {passed : Nat} (mem : passed ∈ tree.pathToRoot index) :
    passed ≤ index := by
  fun_induction pathToRoot tree index with
  | case1 index orphan =>
      rw [List.mem_singleton] at mem
      exact mem.le
  | case2 index parent known lower ih =>
      rcases List.mem_cons.mp mem with rfl | later
      · exact le_rfl
      · exact (ih later).trans lower.le
  | case3 index parent known lower =>
      rw [List.mem_singleton] at mem
      exact mem.le

theorem pairwise_pathToRoot : (tree.pathToRoot index).Pairwise (· > ·) := by
  fun_induction pathToRoot tree index with
  | case1 index orphan => exact List.pairwise_singleton _ _
  | case2 index parent known lower ih =>
      refine List.pairwise_cons.mpr ⟨?_, ih⟩
      intro passed mem
      exact (le_of_mem_pathToRoot mem).trans_lt lower
  | case3 index parent known lower => exact List.pairwise_singleton _ _

theorem nodup_pathToRoot : (tree.pathToRoot index).Nodup :=
  pairwise_pathToRoot.imp fun less => Nat.ne_of_gt less

theorem exists_pathToRoot_eq_cons (tree : SearchTree Position Player Action) (index : Nat) :
    ∃ rest, tree.pathToRoot index = index :: rest := by
  rw [pathToRoot]
  split
  · exact ⟨[], rfl⟩
  · split
    · exact ⟨_, rfl⟩
    · exact ⟨[], rfl⟩

theorem mem_pathToRoot_self (tree : SearchTree Position Player Action) (index : Nat) :
    index ∈ tree.pathToRoot index := by
  rcases tree.exists_pathToRoot_eq_cons index with ⟨rest, path⟩
  rw [path]
  exact List.mem_cons_self

/-- The walk from a node depends on the parents of the nodes up to it alone. -/
theorem pathToRoot_congr (same : ∀ passed ≤ index,
    next.nodes[passed]?.bind (·.parent) = tree.nodes[passed]?.bind (·.parent)) :
    next.pathToRoot index = tree.pathToRoot index := by
  fun_induction pathToRoot tree index with
  | case1 index orphan =>
      rw [pathToRoot, same index le_rfl, orphan]
  | case2 index parent known lower ih =>
      rw [pathToRoot, same index le_rfl, known]
      simp only [lower, if_true]
      rw [ih fun passed le => same passed (le.trans lower.le)]
  | case3 index parent known lower =>
      rw [pathToRoot, same index le_rfl, known]
      simp only [lower, if_false]

/-- The walk from a node along the parents, up to a node that has none. -/
inductive Climbs (tree : SearchTree Position Player Action) : Nat → List Nat → Prop where
  | orphan {index : Nat} {node : SearchNode Position Player Action}
      (at_index : tree.nodes[index]? = some node) (orphan : node.parent = none) :
      Climbs tree index [index]
  | step {index parent : Nat} {node : SearchNode Position Player Action} {path : List Nat}
      (at_index : tree.nodes[index]? = some node) (parent_eq : node.parent = some parent)
      (rest : Climbs tree parent path) : Climbs tree index (index :: path)

end Walk

theorem of_at_ofRoot {player : Player}
    (at_index : (ofRoot position player).nodes[index]? = some node) :
    index = 0 ∧ node = .fresh position player none none := by
  cases index with
  | zero => exact ⟨rfl, (Option.some.inj at_index).symm⟩
  | succ index => cases at_index

/-- Whether the nodes of a tree refer to each other as parents and children. -/
structure Linked [DecidableEq Action] (tree : SearchTree Position Player Action) : Prop where
  /-- The root alone has no parent. -/
  orphan_iff : ∀ {index : Nat} {node : SearchNode Position Player Action},
    tree.nodes[index]? = some node → (node.parent = none ↔ index = 0)
  /-- A parent has a smaller number, and its child of the node's action is the node. -/
  of_parent : ∀ {index parent : Nat} {node : SearchNode Position Player Action},
    tree.nodes[index]? = some node → node.parent = some parent →
      parent < index ∧ ∃ parentNode action, tree.nodes[parent]? = some parentNode ∧
        node.action = some action ∧ parentNode.child? action = some index
  /-- The children of a node have it as their parent. -/
  of_child : ∀ {index child : Nat} {node : SearchNode Position Player Action} {action : Action},
    tree.nodes[index]? = some node → (action, child) ∈ node.children →
      ∃ childNode, tree.nodes[child]? = some childNode ∧ childNode.parent = some index ∧
        childNode.action = some action

/-- Whether no number occurs twice among the children of all nodes. -/
def ChildrenDisjoint (tree : SearchTree Position Player Action) : Prop :=
  ∀ {index other child : Nat} {node otherNode : SearchNode Position Player Action}
    {action otherAction : Action}, tree.nodes[index]? = some node →
      (action, child) ∈ node.children → tree.nodes[other]? = some otherNode →
        (otherAction, child) ∈ otherNode.children → index = other ∧ action = otherAction

section Attach

variable [DecidableEq Action]

/-- What attaching a child does to a tree. -/
structure Attaches (tree next : SearchTree Position Player Action) (parent : Nat)
    (action : Action) (position : Position) (side : Player) : Prop where
  new_action : ∃ node, tree.nodes[parent]? = some node ∧ node.child? action = none
  player_eq : next.player = tree.player
  size_eq : next.nodes.size = tree.nodes.size + 1
  at_new : next.nodes[tree.nodes.size]? =
    some (.fresh position side (some parent) (some action))
  at_old : ∀ index < tree.nodes.size, next.nodes[index]? =
    tree.nodes[index]?.map (·.attachIf (index == parent) action tree.nodes.size)

/-- A child can be attached under every action that its parent does not have yet. -/
theorem exists_attaches [Worded Action] (at_parent : tree.nodes[parent]? = some node)
    (new_action : node.child? action = none) (position : Position) (side : Player) :
    ∃ next, tree.addChild parent action position side = .ok (next, tree.nodes.size) ∧
      tree.Attaches next parent action position side := by
  have found : tree.node? parent = .ok node := by
    simp only [node?, at_parent]
  let linked := tree.modify parent fun node =>
    { node with children := node.children ++ [(action, tree.nodes.size)] }
  let next : SearchTree Position Player Action :=
    ⟨tree.player, linked.nodes.push (.fresh position side (some parent) (some action)), by simp⟩
  refine ⟨next, ?_, ⟨node, at_parent, new_action⟩, rfl, ?_, ?_, ?_⟩
  · simp only [addChild, found, Except.bind, bind, new_action]
    rfl
  · simp [next, linked, modify]
  · simp only [next, linked, modify, Array.getElem?_push, Array.size_modify, if_true]
  · intro index bound
    simp only [next, linked, modify, Array.getElem?_push, Array.size_modify, Nat.ne_of_lt bound,
      if_false, Array.getElem?_modify]
    by_cases here : index = parent
    · subst here
      simp [SearchNode.attachIf]
    · simp [here, Ne.symm here, SearchNode.attachIf]

theorem attaches_of_addChild [Worded Action]
    (added : tree.addChild parent action position side = .ok (next, child)) :
    child = tree.nodes.size ∧ tree.Attaches next parent action position side := by
  cases at_parent : tree.nodes[parent]? with
  | none => simp [addChild, node?, at_parent, bind, Except.bind] at added
  | some node =>
      cases taken : node.child? action with
      | some child => simp [addChild, node?, at_parent, taken, bind, Except.bind] at added
      | none =>
          rcases exists_attaches at_parent taken position side with ⟨attached, same, attaches⟩
          rw [added, Except.ok.injEq, Prod.mk.injEq] at same
          rcases same with ⟨rfl, rfl⟩
          exact ⟨rfl, attaches⟩

theorem Attaches.new_or_old (attaches : tree.Attaches next parent action position side)
    (at_index : next.nodes[index]? = some node) :
    index = tree.nodes.size ∧ node = .fresh position side (some parent) (some action) ∨
      ∃ old, tree.nodes[index]? = some old ∧
        node = old.attachIf (index == parent) action tree.nodes.size := by
  have bound := (Array.getElem?_eq_some_iff.mp at_index).1
  rw [attaches.size_eq] at bound
  rcases Nat.lt_succ_iff_lt_or_eq.mp bound with lower | rfl
  · right
    rw [attaches.at_old index lower, Option.map_eq_some_iff] at at_index
    rcases at_index with ⟨old, at_index, rfl⟩
    exact ⟨old, at_index, rfl⟩
  · left
    rw [attaches.at_new, Option.some.injEq] at at_index
    exact ⟨rfl, at_index.symm⟩

theorem Attaches.at_of_at (attaches : tree.Attaches next parent action position side)
    (at_index : tree.nodes[index]? = some node) :
    next.nodes[index]? = some (node.attachIf (index == parent) action tree.nodes.size) := by
  have bound := (Array.getElem?_eq_some_iff.mp at_index).1
  rw [attaches.at_old index bound, at_index, Option.map_some]

theorem Attaches.root_eq (attaches : tree.Attaches next parent action position side) :
    next.root = tree.root.attachIf (0 == parent) action tree.nodes.size :=
  Option.some.inj ((at_zero next).symm.trans (attaches.at_of_at (at_zero tree)))

theorem Attaches.parent_lt (attaches : tree.Attaches next parent action position side) :
    parent < tree.nodes.size := by
  rcases attaches.new_action with ⟨node, at_parent, -⟩
  exact (Array.getElem?_eq_some_iff.mp at_parent).1

theorem Attaches.pathToRoot_eq (attaches : tree.Attaches next parent action position side)
    (bound : index < tree.nodes.size) : next.pathToRoot index = tree.pathToRoot index := by
  apply pathToRoot_congr
  intro passed le
  rw [attaches.at_old passed (by omega)]
  cases tree.nodes[passed]? <;> rfl

theorem Attaches.pathToRoot_new (attaches : tree.Attaches next parent action position side) :
    next.pathToRoot tree.nodes.size = tree.nodes.size :: tree.pathToRoot parent := by
  rw [pathToRoot_of_parent attaches.at_new rfl attaches.parent_lt,
    attaches.pathToRoot_eq attaches.parent_lt]

theorem Attaches.linked (attaches : tree.Attaches next parent action position side)
    (linked : tree.Linked) : next.Linked := by
  have parent_lt := attaches.parent_lt
  rcases attaches.new_action with ⟨parentNode, at_parent, new_action⟩
  constructor
  · intro index node at_index
    rcases attaches.new_or_old at_index with ⟨rfl, rfl⟩ | ⟨old, at_old, rfl⟩
    · simp only [SearchNode.fresh, reduceCtorEq, false_iff]
      omega
    · have orphan_iff := linked.orphan_iff at_old
      exact orphan_iff
  · intro index above node at_index parent_eq
    rcases attaches.new_or_old at_index with ⟨rfl, rfl⟩ | ⟨old, at_old, rfl⟩
    · rcases Option.some.inj parent_eq with rfl
      refine ⟨parent_lt, _, action, attaches.at_of_at at_parent, rfl, ?_⟩
      rw [beq_self_eq_true]
      exact SearchNode.child?_attachIf_new new_action
    · rcases linked.of_parent at_old parent_eq with ⟨lower, aboveNode, taken, at_above, rest, found⟩
      exact ⟨lower, _, taken, attaches.at_of_at at_above, rest, SearchNode.child?_attachIf found⟩
  · intro index child node taken at_index mem
    rcases attaches.new_or_old at_index with ⟨rfl, rfl⟩ | ⟨old, at_old, rfl⟩
    · cases mem
    · rcases SearchNode.mem_children_attachIf.mp mem with known | ⟨here, same⟩
      · rcases linked.of_child at_old known with ⟨childNode, at_child, parent_eq, action_eq⟩
        exact ⟨_, attaches.at_of_at at_child, parent_eq, action_eq⟩
      · rw [beq_iff_eq] at here
        rw [Prod.mk.injEq] at same
        rcases same with ⟨rfl, rfl⟩
        exact ⟨_, attaches.at_new, by rw [here]; rfl, rfl⟩

end Attach

section Backup

variable [DecidableEq Player] {path : List Nat} {reward : Number}

/-- Whether the rewards of every node are summed as a double. -/
def Floating (tree : SearchTree Position Player Action) : Prop :=
  ∀ (index : Nat) (node : SearchNode Position Player Action),
    tree.nodes[index]? = some node → node.Floating

/-- Credits a reward to the nodes of a list. -/
def creditAll (tree : SearchTree Position Player Action) (path : List Nat) (reward : Number) :
    SearchTree Position Player Action :=
  path.foldl (fun tree index => tree.modify index (·.credit tree.player reward)) tree

/-- Credits a reward to a node and all its ancestors. -/
def credit (tree : SearchTree Position Player Action) (index : Nat) (reward : Number) :
    SearchTree Position Player Action :=
  tree.creditAll (tree.pathToRoot index) reward

theorem player_creditAll : (tree.creditAll path reward).player = tree.player := by
  induction path generalizing tree with
  | nil => rfl
  | cons index path ih => exact ih

theorem size_creditAll : (tree.creditAll path reward).size = tree.size := by
  induction path generalizing tree with
  | nil => rfl
  | cons index path ih =>
      have one_credit : (tree.modify index (·.credit tree.player reward)).size = tree.size := by
        simp only [size, modify, Array.size_modify]
      exact Eq.trans ih one_credit

theorem getElem?_creditAll (nodup : path.Nodup) : (tree.creditAll path reward).nodes[index]? =
    tree.nodes[index]?.map (·.creditIf (decide (index ∈ path)) tree.player reward) := by
  induction path generalizing tree with
  | nil =>
      change tree.nodes[index]? = _
      simp [SearchNode.creditIf]
  | cons first path ih =>
      rcases List.nodup_cons.mp nodup with ⟨new, nodup⟩
      change ((tree.modify first (·.credit tree.player reward)).creditAll path
        reward).nodes[index]? = _
      rw [ih nodup]
      simp only [modify, Array.getElem?_modify]
      by_cases here : first = index
      · subst here
        simp [SearchNode.creditIf, new, Function.comp_def]
      · simp [here, Ne.symm here]

theorem getElem?_credit (tree : SearchTree Position Player Action) (leaf : Nat) (reward : Number)
    (index : Nat) : (tree.credit leaf reward).nodes[index]? = tree.nodes[index]?.map
      (·.creditIf (decide (index ∈ tree.pathToRoot leaf)) tree.player reward) := by
  rw [credit, getElem?_creditAll nodup_pathToRoot]

theorem player_credit {leaf : Nat} : (tree.credit leaf reward).player = tree.player := by
  rw [credit, player_creditAll]

theorem size_credit {leaf : Nat} : (tree.credit leaf reward).size = tree.size := by
  rw [credit, size_creditAll]

theorem exists_of_at_credit {leaf : Nat}
    (at_index : (tree.credit leaf reward).nodes[index]? = some node) :
    ∃ old, tree.nodes[index]? = some old ∧
      node = old.creditIf (decide (index ∈ tree.pathToRoot leaf)) tree.player reward := by
  rw [getElem?_credit, Option.map_eq_some_iff] at at_index
  rcases at_index with ⟨old, at_index, rfl⟩
  exact ⟨old, at_index, rfl⟩

theorem at_credit_of_at (leaf : Nat) (reward : Number) (at_index : tree.nodes[index]? = some node) :
    (tree.credit leaf reward).nodes[index]? =
      some (node.creditIf (decide (index ∈ tree.pathToRoot leaf)) tree.player reward) := by
  rw [getElem?_credit, at_index, Option.map_some]

theorem root_credit (tree : SearchTree Position Player Action) (leaf : Nat) (reward : Number) :
    (tree.credit leaf reward).root =
      tree.root.creditIf (decide (0 ∈ tree.pathToRoot leaf)) tree.player reward :=
  Option.some.inj ((at_zero _).symm.trans (at_credit_of_at leaf reward (at_zero tree)))

theorem Linked.credit [DecidableEq Action] (linked : tree.Linked) (leaf : Nat) (reward : Number) :
    (tree.credit leaf reward).Linked := by
  constructor
  · intro index node at_index
    rcases exists_of_at_credit at_index with ⟨old, at_old, rfl⟩
    rw [SearchNode.parent_creditIf]
    exact linked.orphan_iff at_old
  · intro index parent node at_index parent_eq
    rcases exists_of_at_credit at_index with ⟨old, at_old, rfl⟩
    rw [SearchNode.parent_creditIf] at parent_eq
    rcases linked.of_parent at_old parent_eq with
      ⟨lower, parentNode, action, at_parent, action_eq, found⟩
    refine ⟨lower, _, action, at_credit_of_at leaf reward at_parent, ?_, ?_⟩
    · rw [SearchNode.action_creditIf, action_eq]
    · rwa [SearchNode.child?, SearchNode.children_creditIf]
  · intro index child node action at_index mem
    rcases exists_of_at_credit at_index with ⟨old, at_old, rfl⟩
    rw [SearchNode.children_creditIf] at mem
    rcases linked.of_child at_old mem with ⟨childNode, at_child, parent_eq, action_eq⟩
    refine ⟨_, at_credit_of_at leaf reward at_child, ?_, ?_⟩
    · rw [SearchNode.parent_creditIf, parent_eq]
    · rw [SearchNode.action_creditIf, action_eq]

omit [DecidableEq Player] in
theorem floating_ofRoot (position : Position) (player : Player) :
    (ofRoot position player : SearchTree Position Player Action).Floating := by
  intro index node at_index
  rcases of_at_ofRoot at_index with ⟨-, rfl⟩
  exact ⟨0, rfl⟩

omit [DecidableEq Player] in
theorem Attaches.floating [DecidableEq Action]
    (attaches : tree.Attaches next parent action position side) (floating : tree.Floating) :
    next.Floating := by
  intro index node at_index
  rcases attaches.new_or_old at_index with ⟨-, rfl⟩ | ⟨old, at_old, rfl⟩
  · exact ⟨0, rfl⟩
  · have sum := floating index old at_old
    exact sum

theorem Floating.credit (floating : tree.Floating) (leaf : Nat) (reward : Number) :
    (tree.credit leaf reward).Floating := by
  intro index node at_index
  rcases exists_of_at_credit at_index with ⟨old, at_old, rfl⟩
  cases decide (index ∈ tree.pathToRoot leaf) with
  | false => exact floating index old at_old
  | true => exact ⟨_, rfl⟩

omit [DecidableEq Player] in
theorem modify_node (at_index : tree.nodes[index]? = some node)
    (change : SearchNode Position Player Action → SearchNode Position Player Action) :
    (tree.modify index fun _ => change node) = tree.modify index change := by
  have same : (tree.nodes.modify index fun _ => change node) = tree.nodes.modify index change := by
    apply Array.ext_getElem?
    intro other
    simp only [Array.getElem?_modify]
    split
    · rename_i here
      subst here
      rw [at_index]
      rfl
    · rfl
  simp only [modify, same]

theorem visitAll_eq (floating : tree.Floating) (fits : reward.fits)
    (inside : ∀ passed ∈ path, passed < tree.nodes.size) :
    visitAll reward path tree = (.ok (), tree.creditAll path reward) := by
  induction path generalizing tree with
  | nil => rfl
  | cons index path ih =>
      rw [List.forall_mem_cons] at inside
      have at_index := Array.getElem?_eq_getElem inside.1
      have found : tree.node? index = .ok tree.nodes[index] := by simp only [node?, at_index]
      have credited : visitAll reward (index :: path) tree =
          visitAll reward path (tree.modify index (·.credit tree.player reward)) := by
        simp only [visitAll, found, SearchNode.visit_eq (floating _ _ at_index) fits]
        rw [modify_node at_index fun node => node.credit tree.player reward]
      rw [credited]
      refine ih ?_ ?_
      · intro other node at_other
        simp only [modify, Array.getElem?_modify] at at_other
        split at at_other
        · rcases Option.map_eq_some_iff.mp at_other with ⟨old, -, rfl⟩
          exact ⟨_, rfl⟩
        · exact floating other node at_other
      · simpa only [modify, Array.size_modify] using inside.2

/-- A reward that has a double is credited to the whole walk. -/
theorem Floating.backup_eq (floating : tree.Floating) (bound : index < tree.nodes.size)
    (fits : reward.fits) : tree.backup index reward = (.ok (), tree.credit index reward) :=
  visitAll_eq floating fits fun _ mem => (le_of_mem_pathToRoot mem).trans_lt bound

/-- Any other reward is refused where it comes from. -/
theorem Floating.backup_of_not_fits (floating : tree.Floating) (bound : index < tree.nodes.size)
    (huge : reward.fits = false) : (tree.backup index reward).1 = .error .integerTooLarge := by
  have at_index := Array.getElem?_eq_getElem bound
  have found : tree.node? index = .ok tree.nodes[index] := by simp only [node?, at_index]
  have refused := SearchNode.visit_of_not_fits tree.player (floating _ _ at_index) huge
  rcases tree.exists_pathToRoot_eq_cons index with ⟨rest, path⟩
  rw [backup, path, visitAll]
  simp only [found, refused]

theorem Floating.fits_of_backup (floating : tree.Floating) (bound : index < tree.nodes.size)
    (counted : (tree.backup index reward).1 = .ok ()) : reward.fits = true := by
  by_contra huge
  rw [floating.backup_of_not_fits bound (by simpa using huge)] at counted
  cases counted

end Backup

namespace Linked

variable [DecidableEq Action]

theorem ofRoot (position : Position) (player : Player) :
    (ofRoot position player : SearchTree Position Player Action).Linked := by
  constructor
  · intro index node at_index
    rcases of_at_ofRoot at_index with ⟨rfl, rfl⟩
    simp [SearchNode.fresh]
  · intro index parent node at_index parent_eq
    rcases of_at_ofRoot at_index with ⟨rfl, rfl⟩
    cases parent_eq
  · intro index child node action at_index mem
    rcases of_at_ofRoot at_index with ⟨rfl, rfl⟩
    cases mem

theorem lt_of_mem_children (linked : tree.Linked) (at_index : tree.nodes[index]? = some node)
    (mem : (action, child) ∈ node.children) : index < child ∧ child < tree.nodes.size := by
  rcases linked.of_child at_index mem with ⟨childNode, at_child, parent_eq, -⟩
  exact ⟨(linked.of_parent at_child parent_eq).1, (Array.getElem?_eq_some_iff.mp at_child).1⟩

theorem childrenDisjoint (linked : tree.Linked) : tree.ChildrenDisjoint := by
  intro index other child node otherNode action otherAction at_index mem at_other otherMem
  rcases linked.of_child at_index mem with ⟨childNode, at_child, parent_eq, action_eq⟩
  rcases linked.of_child at_other otherMem with ⟨sameNode, at_same, same_parent, same_action⟩
  rcases Option.some.inj (at_child.symm.trans at_same) with rfl
  exact ⟨Option.some.inj (parent_eq.symm.trans same_parent),
    Option.some.inj (action_eq.symm.trans same_action)⟩

theorem pathToRoot_of_mem_children (linked : tree.Linked)
    (at_index : tree.nodes[index]? = some node) (mem : (action, child) ∈ node.children) :
    tree.pathToRoot child = child :: tree.pathToRoot index := by
  rcases linked.of_child at_index mem with ⟨childNode, at_child, parent_eq, -⟩
  exact pathToRoot_of_parent at_child parent_eq (linked.lt_of_mem_children at_index mem).1

/-- The walk to the root follows the parents, and it ends at the root. -/
theorem climbs (linked : tree.Linked) (bound : index < tree.nodes.size) :
    tree.Climbs index (tree.pathToRoot index) ∧ (tree.pathToRoot index).getLast? = some 0 := by
  induction index using Nat.strong_induction_on with
  | h index ih =>
      have at_index := Array.getElem?_eq_getElem bound
      cases parent_eq : tree.nodes[index].parent with
      | none =>
          rw [pathToRoot_of_orphan at_index parent_eq]
          refine ⟨.orphan at_index parent_eq, ?_⟩
          rw [(linked.orphan_iff at_index).mp parent_eq]
          rfl
      | some parent =>
          have lower := (linked.of_parent at_index parent_eq).1
          rw [pathToRoot_of_parent at_index parent_eq lower]
          rcases ih parent lower (lower.trans bound) with ⟨climbs, last⟩
          refine ⟨.step at_index parent_eq climbs, ?_⟩
          rw [List.getLast?_cons, last]
          rfl

end Linked

end SearchTree

end GameSearch
