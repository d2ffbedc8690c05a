import GameSearch.Nim.Action
import GameSearch.Nim.Position
import GameSearch.Proofs.MonteCarlo.Arena
import GameSearch.Proofs.Number.Whole

/-!
# The books of a search tree

A search tree grows and rewards are backed up, in any order and by any shape of tree. What a node
has on its books afterwards are the rewards that were backed up from it and from the nodes below it,
also from those that came later. Growing leaves the books alone and backing up leaves the shape
alone, so the order in which rewards come in cannot be told from the result.
-/

namespace GameSearch

variable {Position Player Action : Type}

/-- The same node without its books. -/
def SearchNode.bare (node : SearchNode Position Player Action) :
    SearchNode Position Player Action :=
  { node with visits := 0, reward := .real 0 }

theorem SearchNode.bare_visit [DecidableEq Player] (node : SearchNode Position Player Action)
    (player : Player) (reward : Number) : (node.visit player reward).2.bare = node.bare := by
  rw [visit]
  split <;> rfl

namespace SearchTree

/-- A call that changes a search tree. -/
inductive Call (Position Player Action : Type) where
  | addChild (parent : Nat) (action : Action) (position : Position) (side : Player)
  | backup (leaf : Nat) (reward : Number)

namespace Call

/-- The node that a call is about. -/
def index : Call Position Player Action → Nat
  | addChild parent _ _ _ => parent
  | backup leaf _ => leaf

/-- Whether a call makes a tree grow. -/
def grows : Call Position Player Action → Bool
  | addChild .. => true
  | backup .. => false

/-- The reward that a call brings and the node it comes from. -/
def reward? : Call Position Player Action → Option (Nat × Number)
  | addChild .. => none
  | backup leaf reward => some (leaf, reward)

/-- The tree after a call. A refused child leaves it as it is; a refused reward has been counted up to
where it is refused. -/
def perform [DecidableEq Player] [DecidableEq Action] [Worded Action]
    (tree : SearchTree Position Player Action) :
    Call Position Player Action → SearchTree Position Player Action
  | addChild parent action position side =>
    match tree.addChild parent action position side with
    | .ok (next, _) => next
    | .error _ => tree
  | backup leaf reward => (tree.backup leaf reward).2

end Call

/-- The calls of a history that make the tree grow. -/
def growth (calls : List (Call Position Player Action)) : List (Call Position Player Action) :=
  calls.filter Call.grows

/-- The rewards of a history, each with the node it comes from. -/
def rewards (calls : List (Call Position Player Action)) : List (Nat × Number) :=
  calls.filterMap Call.reward?

/-- The sum of the magnitudes of whole rewards. -/
def magnitude (rewards : List (Nat × Number)) : Nat :=
  (rewards.map fun entry => entry.2.whole.natAbs).sum

section History

variable [DecidableEq Player] [DecidableEq Action] [Worded Action]

/-- The tree after a history of calls. -/
def performAll (tree : SearchTree Position Player Action)
    (calls : List (Call Position Player Action)) : SearchTree Position Player Action :=
  calls.foldl Call.perform tree

/-- Whether every call of a history is about a node that the tree has at that time. -/
def InRange (tree : SearchTree Position Player Action) :
    List (Call Position Player Action) → Prop
  | [] => True
  | call :: calls => call.index < tree.nodes.size ∧ InRange (call.perform tree) calls

end History

/-- The same tree without its books. -/
def bare (tree : SearchTree Position Player Action) : SearchTree Position Player Action :=
  ⟨tree.player, tree.nodes.map SearchNode.bare, by simpa using tree.nonempty⟩

/-- Whether a node is another one or one of its descendants. -/
inductive IsUnder (tree : SearchTree Position Player Action) (ancestor : Nat) : Nat → Prop where
  | self : IsUnder tree ancestor ancestor
  | child {index parent : Nat} {node : SearchNode Position Player Action}
      (at_index : tree.nodes[index]? = some node) (parent_eq : node.parent = some parent)
      (rest : IsUnder tree ancestor parent) : IsUnder tree ancestor index

open Classical in
/-- The rewards that come from a node or from below it. -/
noncomputable def rewardsUnder (tree : SearchTree Position Player Action) (index : Nat)
    (rewards : List (Nat × Number)) : List Number :=
  (rewards.filter fun entry => tree.IsUnder index entry.1).map (·.2)

/-- The sum of the rewards that come from a node or from below it. -/
noncomputable def totalUnder (tree : SearchTree Position Player Action) (index : Nat)
    (rewards : List (Nat × Number)) : Int :=
  ((tree.rewardsUnder index rewards).map Number.whole).sum

/-- Whether the books of a node are those of the rewards from it and from below it: their number,
and their sum from the point of view of the side that acted into the node. -/
structure Accounts [DecidableEq Player] (tree : SearchTree Position Player Action)
    (rewards : List (Nat × Number)) (index : Nat) (node : SearchNode Position Player Action) :
    Prop where
  visits : node.visits = (tree.rewardsUnder index rewards).length
  reward : node.reward.extent = .finite (if node.side = tree.player
    then tree.totalUnder index rewards else -tree.totalUnder index rewards : Int)

/-- Whether two trees have the same shape and books of the same value. -/
structure SameBooks (tree next : SearchTree Position Player Action) : Prop where
  bare_eq : next.bare = tree.bare
  books : ∀ {index : Nat} {node other : SearchNode Position Player Action},
    tree.nodes[index]? = some node → next.nodes[index]? = some other →
      other.visits = node.visits ∧ other.reward.extent = node.reward.extent

variable {tree next : SearchTree Position Player Action} {index leaf ancestor parent : Nat}
  {node : SearchNode Position Player Action} {rewards : List (Nat × Number)} {reward : Number}
  {position : Position} {side : Player} {action : Action}

theorem isUnder_of_mem_pathToRoot (mem : ancestor ∈ tree.pathToRoot index) :
    tree.IsUnder ancestor index := by
  fun_induction pathToRoot tree index with
  | case1 index orphan =>
      rw [List.mem_singleton] at mem
      subst mem
      exact .self
  | case2 index parent known lower ih =>
      rcases List.mem_cons.mp mem with rfl | later
      · exact .self
      · rcases Option.bind_eq_some_iff.mp known with ⟨node, at_index, parent_eq⟩
        exact .child at_index parent_eq (ih later)
  | case3 index parent known lower =>
      rw [List.mem_singleton] at mem
      subst mem
      exact .self

/-- The nodes above a node are those on its walk to the root. -/
theorem Linked.isUnder_iff [DecidableEq Action] (linked : tree.Linked) :
    tree.IsUnder ancestor index ↔ ancestor ∈ tree.pathToRoot index := by
  constructor
  · intro under
    induction under with
    | self => exact tree.mem_pathToRoot_self ancestor
    | child at_index parent_eq _ ih =>
        rw [pathToRoot_of_parent at_index parent_eq (linked.of_parent at_index parent_eq).1]
        exact List.mem_cons_of_mem _ ih
  · exact isUnder_of_mem_pathToRoot

/-! ### Rewards from below -/

theorem rewardsUnder_congr (same : ∀ entry ∈ rewards,
    next.IsUnder index entry.1 ↔ tree.IsUnder index entry.1) :
    next.rewardsUnder index rewards = tree.rewardsUnder index rewards := by
  unfold rewardsUnder
  congr 1
  apply List.filter_congr
  intro entry mem
  exact decide_eq_decide.mpr (same entry mem)

theorem rewardsUnder_append_of_isUnder (under : tree.IsUnder index leaf) :
    tree.rewardsUnder index (rewards ++ [(leaf, reward)]) =
      tree.rewardsUnder index rewards ++ [reward] := by
  simp [rewardsUnder, List.filter_append, under]

theorem rewardsUnder_append_of_not_isUnder (beside : ¬tree.IsUnder index leaf) :
    tree.rewardsUnder index (rewards ++ [(leaf, reward)]) = tree.rewardsUnder index rewards := by
  simp [rewardsUnder, List.filter_append, beside]

theorem rewardsUnder_eq_nil (beside : ∀ entry ∈ rewards, ¬tree.IsUnder index entry.1) :
    tree.rewardsUnder index rewards = [] := by
  simpa [rewardsUnder] using fun leaf reward mem => beside (leaf, reward) mem

/-- What comes from below a node is no more than what comes in. -/
theorem natAbs_totalUnder_le : (tree.totalUnder index rewards).natAbs ≤ magnitude rewards := by
  have parts : (tree.totalUnder index rewards).natAbs ≤
      (((tree.rewardsUnder index rewards).map Number.whole).map Int.natAbs).sum :=
    List.le_sum_of_subadditive Int.natAbs le_rfl Int.natAbs_add_le _
  apply parts.trans
  rw [rewardsUnder, List.map_map, List.map_map]
  exact (List.filter_sublist.map _).sum_le_sum (by simp)

theorem totalUnder_append_of_isUnder (under : tree.IsUnder index leaf) :
    tree.totalUnder index (rewards ++ [(leaf, reward)]) =
      tree.totalUnder index rewards + reward.whole := by
  simp [totalUnder, rewardsUnder_append_of_isUnder under]

theorem rewardsUnder_perm {others : List (Nat × Number)} (perm : others.Perm rewards) :
    (tree.rewardsUnder index others).Perm (tree.rewardsUnder index rewards) :=
  (perm.filter _).map _

theorem magnitude_perm {others : List (Nat × Number)} (perm : others.Perm rewards) :
    magnitude others = magnitude rewards :=
  (perm.map _).sum_eq

theorem magnitude_append (first second : List (Nat × Number)) :
    magnitude (first ++ second) = magnitude first + magnitude second := by
  simp [magnitude]

@[simp]
theorem magnitude_singleton : magnitude [(leaf, reward)] = reward.whole.natAbs := rfl

/-! ### The books of one node -/

namespace Accounts

variable [DecidableEq Player]

theorem fresh (beside : ∀ entry ∈ rewards, ¬tree.IsUnder index entry.1)
    (above : Option Nat) (taken : Option Action) :
    tree.Accounts rewards index (.fresh position side above taken) := by
  have none := rewardsUnder_eq_nil beside
  have nothing : tree.totalUnder index rewards = 0 := by
    rw [totalUnder, none]
    rfl
  refine ⟨by rw [none]; rfl, ?_⟩
  rw [nothing, neg_zero, ite_self]
  exact Number.extent_real_zero

/-- A reward from below comes on the books, with the sign for the side of the node. -/
theorem credit (accounts : tree.Accounts rewards index node) (whole : reward.IsWhole)
    (small : magnitude (rewards ++ [(leaf, reward)]) < Double.wholeBound)
    (under : tree.IsUnder index leaf) :
    tree.Accounts (rewards ++ [(leaf, reward)]) index (node.credit tree.player reward) := by
  rw [magnitude_append, magnitude_singleton] at small
  have most : (tree.totalUnder index rewards).natAbs ≤ magnitude rewards := natAbs_totalUnder_le
  have reward_eq := accounts.reward
  constructor
  · rw [rewardsUnder_append_of_isUnder under, List.length_append, List.length_singleton,
      Nat.cast_add, ← accounts.visits]
    rfl
  · rw [totalUnder_append_of_isUnder under]
    change (Number.real (node.reward.toFloat +
      (if node.side = tree.player then reward else -reward).toFloat)).extent =
        .finite (if node.side = tree.player then _ else _ : Int)
    split
    · rename_i own
      rw [if_pos own] at reward_eq
      exact Number.extent_add reward_eq whole (by omega) (by omega) (by omega)
    · rename_i facing
      rw [if_neg facing] at reward_eq
      rw [neg_add]
      exact Number.extent_add reward_eq (Number.extent_neg whole) (by omega) (by omega) (by omega)

/-- A reward from elsewhere does not. -/
theorem pass (accounts : tree.Accounts rewards index node) (beside : ¬tree.IsUnder index leaf) :
    tree.Accounts (rewards ++ [(leaf, reward)]) index node := by
  have kept : tree.rewardsUnder index (rewards ++ [(leaf, reward)]) =
      tree.rewardsUnder index rewards := rewardsUnder_append_of_not_isUnder beside
  exact ⟨by rw [kept, accounts.visits], by rw [totalUnder, kept]; exact accounts.reward⟩

/-- The books of a node depend on the player, on the rewards and on what comes from below. -/
theorem congr (accounts : tree.Accounts rewards index node) (player_eq : next.player = tree.player)
    (same : ∀ entry ∈ rewards, next.IsUnder index entry.1 ↔ tree.IsUnder index entry.1) :
    next.Accounts rewards index node := by
  have kept := rewardsUnder_congr same
  refine ⟨by rw [kept, accounts.visits], ?_⟩
  rw [totalUnder, kept, player_eq]
  exact accounts.reward

end Accounts

/-! ### Growth and backups -/

section Links

variable [DecidableEq Action]

theorem Attaches.isUnder_iff (attaches : tree.Attaches next parent action position side)
    (linked : tree.Linked) (bound : leaf < tree.nodes.size) :
    next.IsUnder index leaf ↔ tree.IsUnder index leaf := by
  rw [(attaches.linked linked).isUnder_iff, linked.isUnder_iff, attaches.pathToRoot_eq bound]

variable [DecidableEq Player]

theorem Linked.isUnder_credit_iff (linked : tree.Linked) {descendant : Nat} :
    (tree.credit leaf reward).IsUnder index descendant ↔ tree.IsUnder index descendant := by
  have same : (tree.credit leaf reward).pathToRoot descendant = tree.pathToRoot descendant := by
    apply pathToRoot_congr
    intro passed _
    rw [getElem?_credit]
    cases tree.nodes[passed]? <;> simp
  rw [(linked.credit leaf reward).isUnder_iff, linked.isUnder_iff, same]

/-- A tree whose nodes refer to each other and whose books are those of the rewards so far. -/
structure Booked (tree : SearchTree Position Player Action) (rewards : List (Nat × Number)) :
    Prop where
  linked : tree.Linked
  floating : tree.Floating
  inside : ∀ entry ∈ rewards, entry.1 < tree.nodes.size
  accounts : ∀ {index : Nat} {node : SearchNode Position Player Action},
    tree.nodes[index]? = some node → tree.Accounts rewards index node

theorem booked_ofRoot (position : Position) (player : Player) :
    (ofRoot position player : SearchTree Position Player Action).Booked [] := by
  refine ⟨.ofRoot position player, floating_ofRoot position player, by simp, ?_⟩
  intro index node at_index
  rcases of_at_ofRoot at_index with ⟨rfl, rfl⟩
  exact .fresh (by simp) none none

/-- A new node has nothing on its books, and the old ones keep theirs. -/
theorem Booked.attach (booked : tree.Booked rewards)
    (attaches : tree.Attaches next parent action position side) : next.Booked rewards := by
  have linked := attaches.linked booked.linked
  refine ⟨linked, attaches.floating booked.floating, ?_, ?_⟩
  · intro entry mem
    rw [attaches.size_eq]
    exact (booked.inside entry mem).trans (Nat.lt_succ_self _)
  · intro index node at_index
    rcases attaches.new_or_old at_index with ⟨rfl, rfl⟩ | ⟨old, at_old, rfl⟩
    · apply Accounts.fresh
      -- Every reward so far comes from a node with a smaller number.
      intro entry mem under
      have above := le_of_mem_pathToRoot (linked.isUnder_iff.mp under)
      exact absurd (booked.inside entry mem) (not_lt.mpr above)
    · have accounts := (booked.accounts at_old).congr attaches.player_eq fun entry mem =>
        attaches.isUnder_iff booked.linked (booked.inside entry mem)
      exact ⟨accounts.visits, accounts.reward⟩

/-- A reward comes on the books of the nodes on the walk to the root, and of no others. -/
theorem Booked.backup (booked : tree.Booked rewards) (bound : leaf < tree.nodes.size)
    (whole : reward.IsWhole)
    (small : magnitude (rewards ++ [(leaf, reward)]) < Double.wholeBound) :
    (tree.backup leaf reward).2.Booked (rewards ++ [(leaf, reward)]) := by
  have reward_small : reward.whole.natAbs < Double.wholeBound := by
    rw [magnitude_append, magnitude_singleton] at small
    omega
  rw [booked.floating.backup_eq bound (Number.fits_of_extent whole reward_small)]
  refine ⟨booked.linked.credit leaf reward, booked.floating.credit leaf reward, ?_, ?_⟩
  · intro entry mem
    change entry.1 < (tree.credit leaf reward).size
    rw [size_credit]
    rcases List.mem_append.mp mem with earlier | last
    · exact booked.inside entry earlier
    · rw [List.mem_singleton.mp last]
      exact bound
  · intro index node at_index
    rcases exists_of_at_credit at_index with ⟨old, at_old, rfl⟩
    have accounts := booked.accounts at_old
    apply Accounts.congr _ player_credit fun entry _ => booked.linked.isUnder_credit_iff
    by_cases passed : index ∈ tree.pathToRoot leaf
    · rw [decide_eq_true passed]
      exact accounts.credit whole small (isUnder_of_mem_pathToRoot passed)
    · rw [decide_eq_false passed]
      exact accounts.pass (mt booked.linked.isUnder_iff.mp passed)

end Links

/-! ### Histories -/

theorem rewards_backup_cons {calls : List (Call Position Player Action)} :
    SearchTree.rewards (.backup leaf reward :: calls) =
      (leaf, reward) :: SearchTree.rewards calls := rfl

section History

variable [DecidableEq Player] [DecidableEq Action] [Worded Action]
  {calls : List (Call Position Player Action)}

/-- However a tree grows in between, its books are those of the rewards that have come in. -/
theorem Booked.performAll (booked : tree.Booked rewards) (inRange : tree.InRange calls)
    (whole : ∀ entry ∈ SearchTree.rewards calls, entry.2.IsWhole)
    (small : magnitude (rewards ++ SearchTree.rewards calls) < Double.wholeBound) :
    (tree.performAll calls).Booked (rewards ++ SearchTree.rewards calls) := by
  -- The rewards that were there before grow with each step, so that the bound is on all of them.
  induction calls generalizing tree rewards with
  | nil => simpa [SearchTree.rewards, SearchTree.performAll] using booked
  | cons call calls ih =>
      rcases inRange with ⟨bound, later⟩
      cases call with
      | addChild parent action position side =>
          apply ih _ later whole small
          cases added : tree.addChild parent action position side with
          | error fault => simpa only [Call.perform, added] using booked
          | ok result =>
              rcases result with ⟨next, child⟩
              simp only [Call.perform, added]
              exact booked.attach (attaches_of_addChild added).2
      | backup leaf reward =>
          rw [rewards_backup_cons, List.append_cons] at small ⊢
          rw [rewards_backup_cons, List.forall_mem_cons] at whole
          apply ih _ later whole.2 small
          apply booked.backup bound whole.1
          rw [magnitude_append] at small
          exact (Nat.le_add_right _ _).trans_lt small

end History

/-! ### Shapes -/

theorem eq_of_nodes_eq (player_eq : next.player = tree.player)
    (nodes_eq : next.nodes = tree.nodes) : next = tree := by
  cases tree
  cases next
  simp only at player_eq nodes_eq
  subst player_eq nodes_eq
  rfl

theorem player_bare (tree : SearchTree Position Player Action) : tree.bare.player = tree.player :=
  rfl

theorem at_bare : tree.bare.nodes[index]? = tree.nodes[index]?.map SearchNode.bare := by
  simp [bare]

theorem at_bare_of_at (at_index : tree.nodes[index]? = some node) :
    tree.bare.nodes[index]? = some node.bare := by
  rw [at_bare, at_index]
  rfl

theorem isUnder_bare_iff : tree.bare.IsUnder ancestor index ↔ tree.IsUnder ancestor index := by
  constructor
  · intro under
    induction under with
    | self => exact .self
    | child at_index parent_eq _ ih =>
        rw [at_bare, Option.map_eq_some_iff] at at_index
        rcases at_index with ⟨node, at_index, rfl⟩
        exact .child at_index parent_eq ih
  · intro under
    induction under with
    | self => exact .self
    | child at_index parent_eq _ ih => exact .child (at_bare_of_at at_index) parent_eq ih

theorem isUnder_iff_of_bare_eq (same : next.bare = tree.bare) :
    next.IsUnder ancestor index ↔ tree.IsUnder ancestor index := by
  rw [← isUnder_bare_iff, same, isUnder_bare_iff]

theorem side_eq_of_bare_eq {other : SearchNode Position Player Action}
    (same : next.bare = tree.bare) (at_index : tree.nodes[index]? = some node)
    (at_other : next.nodes[index]? = some other) : other.side = node.side := by
  have at_bare_other := at_bare_of_at at_other
  rw [same, at_bare_of_at at_index, Option.some.injEq] at at_bare_other
  exact (congrArg SearchNode.side at_bare_other).symm

/-- Two trees of one shape have the same books if they have seen the same rewards in some order. -/
theorem Accounts.eq_of_perm [DecidableEq Player] {others : List (Nat × Number)}
    {other : SearchNode Position Player Action} (accounts : tree.Accounts rewards index node)
    (other_accounts : next.Accounts others index other) (same : next.bare = tree.bare)
    (side_eq : other.side = node.side) (perm : others.Perm rewards) :
    other.visits = node.visits ∧ other.reward.extent = node.reward.extent := by
  have under : next.rewardsUnder index others = tree.rewardsUnder index others :=
    rewardsUnder_congr fun _ _ => isUnder_iff_of_bare_eq same
  have under_perm : (next.rewardsUnder index others).Perm (tree.rewardsUnder index rewards) := by
    rw [under]
    exact rewardsUnder_perm perm
  have total_eq : next.totalUnder index others = tree.totalUnder index rewards :=
    (under_perm.map Number.whole).sum_eq
  have player_eq : next.player = tree.player := by
    rw [← next.player_bare, same, player_bare]
  constructor
  · rw [other_accounts.visits, accounts.visits, under_perm.length_eq]
  · rw [other_accounts.reward, accounts.reward, total_eq, side_eq, player_eq]

theorem Booked.sameBooks [DecidableEq Action] [DecidableEq Player] {others : List (Nat × Number)}
    (booked : tree.Booked rewards) (other_booked : next.Booked others)
    (same : next.bare = tree.bare) (perm : others.Perm rewards) : tree.SameBooks next := by
  refine ⟨same, ?_⟩
  intro index node other at_index at_other
  have side_eq := side_eq_of_bare_eq same at_index at_other
  exact (booked.accounts at_index).eq_of_perm (other_booked.accounts at_other) same side_eq perm

theorem size_bare (tree : SearchTree Position Player Action) : tree.bare.size = tree.size := by
  simp [size, bare]

theorem bare_modify (at_index : tree.nodes[index]? = some node)
    {changed : SearchNode Position Player Action} (same : changed.bare = node.bare) :
    (tree.modify index fun _ => changed).bare = tree.bare := by
  apply eq_of_nodes_eq
  · rfl
  · apply Array.ext_getElem?
    intro other
    rw [at_bare, at_bare, modify, Array.getElem?_modify]
    split
    · rename_i here
      subst here
      rw [at_index]
      exact congrArg some same
    · rfl

theorem bare_visitAll [DecidableEq Player] (reward : Number) (path : List Nat)
    (tree : SearchTree Position Player Action) :
    (visitAll reward path tree).2.bare = tree.bare := by
  induction path generalizing tree with
  | nil => rfl
  | cons index path ih =>
      cases at_index : tree.nodes[index]? with
      | none => simp only [visitAll, node?, at_index]
      | some node =>
          have kept := bare_modify at_index (node.bare_visit tree.player reward)
          simp only [visitAll, node?, at_index]
          split
          · exact kept
          · exact (ih _).trans kept

/-- Rewards leave the shape alone, also those that are refused. -/
theorem bare_backup [DecidableEq Player] (tree : SearchTree Position Player Action) (leaf : Nat)
    (reward : Number) : (tree.backup leaf reward).2.bare = tree.bare :=
  bare_visitAll reward (tree.pathToRoot leaf) tree

theorem Attaches.bare [DecidableEq Action] {other : SearchTree Position Player Action}
    (attaches : tree.Attaches next parent action position side)
    (bare_attaches : tree.bare.Attaches other parent action position side) :
    other = next.bare := by
  have size_eq : tree.bare.nodes.size = tree.nodes.size := by simp [SearchTree.bare]
  apply eq_of_nodes_eq
  · exact bare_attaches.player_eq.trans attaches.player_eq.symm
  · apply Array.ext_getElem?
    intro index
    rw [at_bare]
    rcases Nat.lt_trichotomy index tree.nodes.size with old | rfl | beyond
    · rw [bare_attaches.at_old index (by omega), attaches.at_old index old, at_bare, size_eq]
      cases tree.nodes[index]? <;> rfl
    · have at_new := bare_attaches.at_new
      rw [size_eq] at at_new
      rw [at_new, attaches.at_new]
      rfl
    · have last := attaches.size_eq
      have bare_last := bare_attaches.size_eq
      rw [Array.getElem?_eq_none (by omega), Array.getElem?_eq_none (by omega)]
      rfl

/-- A child cannot be attached a second time. -/
theorem addChild_of_mem [DecidableEq Action] [Worded Action]
    (at_parent : tree.nodes[parent]? = some node)
    (taken : action ∈ node.children.map (·.1)) (position : Position) (side : Player) :
    tree.addChild parent action position side =
      .error (.alreadyExpanded (Worded.literal action) parent) := by
  have found : tree.node? parent = .ok node := by
    simp only [node?, at_parent]
  have expanded : (node.child? action).isSome = true := by
    rw [Option.isSome_iff_ne_none, ne_eq, SearchNode.child?_eq_none]
    exact not_not_intro taken
  simp only [addChild, found, bind, Except.bind, expanded, if_true]

section History

variable [DecidableEq Player] [DecidableEq Action] [Worded Action]
  {calls others : List (Call Position Player Action)}

/-- What growing does to the shape of a tree depends on the shape alone. -/
theorem bare_perform_addChild :
    (Call.perform tree (.addChild parent action position side)).bare =
      Call.perform tree.bare (.addChild parent action position side) := by
  cases at_parent : tree.nodes[parent]? with
  | none =>
      have missing : tree.bare.nodes[parent]? = none := by rw [at_bare, at_parent]; rfl
      simp only [Call.perform, addChild, node?, at_parent, missing, bind, Except.bind]
  | some node =>
      have at_bare_parent := at_bare_of_at at_parent
      by_cases taken : action ∈ node.children.map (·.1)
      · simp only [Call.perform, addChild_of_mem at_parent taken,
          addChild_of_mem at_bare_parent taken]
      · have new_action := SearchNode.child?_eq_none.mpr taken
        rcases exists_attaches at_parent new_action position side with ⟨next, added, attaches⟩
        rcases exists_attaches at_bare_parent new_action position side with
          ⟨other, bare_added, bare_attaches⟩
        simp only [Call.perform, added, bare_added]
        exact (attaches.bare bare_attaches).symm

/-- The shape of a tree comes from the calls that make it grow. -/
theorem bare_performAll : (tree.performAll calls).bare = tree.bare.performAll (growth calls) := by
  induction calls generalizing tree with
  | nil => rfl
  | cons call calls ih =>
      refine Eq.trans ih ?_
      cases call with
      | addChild parent action position side => rw [bare_perform_addChild]; rfl
      | backup leaf reward =>
          change (tree.backup leaf reward).2.bare.performAll _ = _
          rw [bare_backup]
          rfl

theorem performAll_booked {player : Player} (inRange : (ofRoot position player).InRange calls)
    (whole : ∀ entry ∈ SearchTree.rewards calls, entry.2.IsWhole)
    (small : magnitude (SearchTree.rewards calls) < Double.wholeBound) :
    ((ofRoot position player).performAll calls).Booked (SearchTree.rewards calls) := by
  have booked : (ofRoot position player : SearchTree Position Player Action).Booked [] :=
    booked_ofRoot position player
  exact booked.performAll inRange whole small

/-- The books of a search tree. After any calls that make a fresh tree grow and bring whole rewards
of less than two to the power of 53 in all, each node has been visited once for every reward from
it or from below it and has them as its total, with the sign for its side. Other calls that let the
tree grow alike and bring the same rewards in another order lead to the same tree, as far as values
go. A child that is there already is refused, which changes nothing, and any other is attached. -/
theorem performAll_accounts (position : Position) (player : Player)
    (inRange : (ofRoot position player).InRange calls)
    (whole : ∀ entry ∈ SearchTree.rewards calls, entry.2.IsWhole)
    (small : magnitude (SearchTree.rewards calls) < Double.wholeBound) :
    let tree := (ofRoot position player).performAll calls
    (∀ (index : Nat) (node : SearchNode Position Player Action),
      tree.nodes[index]? = some node → tree.Accounts (SearchTree.rewards calls) index node) ∧
    (∀ others : List (Call Position Player Action), (ofRoot position player).InRange others →
      growth others = growth calls →
        (SearchTree.rewards others).Perm (SearchTree.rewards calls) →
          tree.SameBooks ((ofRoot position player).performAll others)) ∧
    ∀ (parent : Nat) (node : SearchNode Position Player Action) (action : Action)
      (position : Position) (side : Player),
      tree.nodes[parent]? = some node →
        (action ∈ node.children.map (·.1) →
          tree.addChild parent action position side =
            .error (.alreadyExpanded (Worded.literal action) parent) ∧
          Call.perform tree (.addChild parent action position side) = tree) ∧
        (action ∉ node.children.map (·.1) → ∃ next,
          tree.addChild parent action position side = .ok (next, tree.nodes.size) ∧
            tree.Attaches next parent action position side) := by
  intro tree
  have booked : tree.Booked (SearchTree.rewards calls) := performAll_booked inRange whole small
  refine ⟨fun index node => booked.accounts, ?_, ?_⟩
  · intro others others_inRange growth_eq perm
    have other_booked := performAll_booked others_inRange
      (fun entry mem => whole entry (perm.mem_iff.mp mem)) (by rwa [magnitude_perm perm])
    apply booked.sameBooks other_booked _ perm
    simp only [tree, bare_performAll, growth_eq]
  · intro parent node action position side at_parent
    constructor
    · intro taken
      have refused := addChild_of_mem at_parent taken position side
      exact ⟨refused, by simp only [Call.perform, refused]⟩
    · intro untried
      exact exists_attaches at_parent (SearchNode.child?_eq_none.mpr untried) position side

end History

/-- Five points from below the root and two lost at the root, in either order. -/
theorem performAll_accounts_nim :
    let start : Nim.Position := ⟨[2, 2], .one, none, false, by simp, by simp⟩
    let attach : Call Nim.Position Nim.Player Nim.Action :=
      .addChild 0 ⟨0, 1⟩ ⟨[1, 2], .two, none, false, by simp, by simp⟩ .one
    let calls := [attach, .backup 1 (.int 5), .backup 0 (.int (-2))]
    let others := [attach, .backup 0 (.int (-2)), .backup 1 (.int 5)]
    let fresh : SearchTree Nim.Position Nim.Player Nim.Action := ofRoot start .two
    fresh.InRange calls ∧ (∀ entry ∈ SearchTree.rewards calls, entry.2.IsWhole) ∧
      magnitude (SearchTree.rewards calls) < Double.wholeBound ∧
      fresh.InRange others ∧ growth others = growth calls ∧
      (SearchTree.rewards others).Perm (SearchTree.rewards calls) ∧
      (fresh.performAll calls).SameBooks (fresh.performAll others) ∧
      ∀ (index : Nat) (node : SearchNode Nim.Position Nim.Player Nim.Action),
        (fresh.performAll calls).nodes[index]? = some node →
          (fresh.performAll calls).Accounts (SearchTree.rewards calls) index node := by
  intro start attach calls others fresh
  have size_eq : ∀ leaf reward, ((attach.perform fresh).backup leaf reward).2.nodes.size = 2 := by
    intro leaf reward
    have same := congrArg size (bare_backup (attach.perform fresh) leaf reward)
    rw [size_bare, size_bare] at same
    exact same
  have inRange : fresh.InRange calls :=
    ⟨by decide, by decide, Nat.zero_lt_two.trans_eq (size_eq 1 (.int 5)).symm, trivial⟩
  have others_inRange : fresh.InRange others :=
    ⟨by decide, by decide, Nat.one_lt_two.trans_eq (size_eq 0 (.int (-2))).symm, trivial⟩
  have whole : ∀ entry ∈ SearchTree.rewards calls, entry.2.IsWhole := by decide
  have small : magnitude (SearchTree.rewards calls) < Double.wholeBound := by decide
  have perm : (SearchTree.rewards others).Perm (SearchTree.rewards calls) := .swap _ _ _
  have accounts := performAll_accounts start .two inRange whole small
  exact ⟨inRange, whole, small, others_inRange, rfl, perm,
    accounts.2.1 others others_inRange rfl perm, accounts.1⟩

end SearchTree

end GameSearch
