import GameSearch.Proofs.MonteCarlo.Choice
import GameSearch.Proofs.MonteCarlo.Conservation
import Mathlib.Algebra.Order.BigOperators.Group.List

/-!
# The robust child

A tree search answers with the root's most visited child, the earliest of several. Nothing in the
final choice looks at the enumeration of the legal actions. That the earliest of the most visited
children is the earliest in the enumeration too rests on the order in which children are added.

How many children there are follows from the visits alone. While the root is not fully expanded, no
child is visited twice, and every child has been visited, so there are as many children as there
were iterations; and once it is, there is a child for every distinct legal action.
-/

namespace GameSearch

/-- Whether an item is the first one of the greatest rank. -/
def IsFirstMost {α : Type} (rank : α → Int) (items : List α) (winner : α) : Prop :=
  ∃ before after, items = before ++ winner :: after ∧
    (∀ item ∈ before, rank item < rank winner) ∧ ∀ item ∈ after, rank item ≤ rank winner

namespace IsFirstMost

variable {α β : Type} {rank : α → Int} {items : List α} {winner first next : α}

theorem mem (most : IsFirstMost rank items winner) : winner ∈ items := by
  rcases most with ⟨before, after, rfl, -, -⟩
  simp

theorem le_of_mem (most : IsFirstMost rank items winner) {item : α} (mem : item ∈ items) :
    rank item ≤ rank winner := by
  rcases most with ⟨before, after, rfl, less, le⟩
  rcases List.mem_append.mp mem with early | late
  · exact (less item early).le
  · rcases List.mem_cons.mp late with rfl | late
    · exact le_rfl
    · exact le item late

theorem cons (most : IsFirstMost rank items winner) (less : rank first < rank winner) :
    IsFirstMost rank (first :: items) winner := by
  rcases most with ⟨before, after, rfl, before_less, after_le⟩
  refine ⟨first :: before, after, rfl, ?_, after_le⟩
  intro item mem
  rcases List.mem_cons.mp mem with rfl | mem
  · exact less
  · exact before_less item mem

/-- An item that the first one is not less than makes no difference behind it. -/
theorem insert (most : IsFirstMost rank (first :: items) winner) (le : rank next ≤ rank first) :
    IsFirstMost rank (first :: next :: items) winner := by
  have first_le := most.le_of_mem List.mem_cons_self
  rcases most with ⟨before, after, split, before_less, after_le⟩
  cases before with
  | nil =>
      rcases List.cons.inj split with ⟨rfl, rfl⟩
      refine ⟨[], next :: items, rfl, by simp, ?_⟩
      intro item mem
      rcases List.mem_cons.mp mem with rfl | mem
      · exact le
      · exact after_le item mem
  | cons _ before =>
      rcases List.cons.inj split with ⟨rfl, rfl⟩
      have first_less := before_less first List.mem_cons_self
      refine ⟨first :: next :: before, after, rfl, ?_, after_le⟩
      intro item mem
      rcases List.mem_cons.mp mem with rfl | mem
      · exact first_less
      · rcases List.mem_cons.mp mem with rfl | mem
        · exact lt_of_le_of_lt le first_less
        · exact before_less item (List.mem_cons_of_mem _ mem)

theorem of_map {rank : β → Int} {image : α → β} {winner : β}
    (most : IsFirstMost rank (items.map image) winner) :
    ∃ item, image item = winner ∧ IsFirstMost (fun item => rank (image item)) items item := by
  rcases most with ⟨before, after, split, before_less, after_le⟩
  rcases List.map_eq_append_iff.mp split with ⟨early, late, rfl, rfl, late_eq⟩
  rcases List.map_eq_cons_iff.mp late_eq with ⟨item, rest, rfl, rfl, rfl⟩
  refine ⟨item, rfl, early, rest, rfl, ?_, ?_⟩
  · intro other mem
    exact before_less _ (List.mem_map_of_mem mem)
  · intro other mem
    exact after_le _ (List.mem_map_of_mem mem)

end IsFirstMost

theorem firstBest_isFirstMost {α : Type} (first : α × Int) (rest : List (α × Int)) :
    IsFirstMost Prod.snd (first :: rest)
      (firstBest (fun visits other => other < visits) first rest) := by
  induction rest generalizing first with
  | nil => exact ⟨[], [], rfl, by simp, by simp⟩
  | cons next rest ih =>
      rw [firstBest]
      by_cases beaten : first.2 < next.2
      · rw [if_pos (decide_eq_true beaten)]
        have later := ih next
        exact later.cons (lt_of_lt_of_le beaten (later.le_of_mem List.mem_cons_self))
      · rw [if_neg (by simpa using beaten)]
        exact (ih first).insert (Int.not_lt.mp beaten)

variable {Memory Position Player Action : Type} {game : Game Position Player Action}
  {scorer : ChildScorer}

namespace SearchTree

variable {tree : SearchTree Position Player Action} {node : SearchNode Position Player Action}
  {start : Position} {player : Player} {count : Nat}

/-- How often a child has been visited. -/
def entryVisits (tree : SearchTree Position Player Action) (entry : Action × Nat) : Int :=
  (tree.standing entry.2).1

/-- Whether an action is that of a child of the root that no other one has more visits than. -/
def IsRobust (tree : SearchTree Position Player Action) (action : Action) : Prop :=
  ∃ entry ∈ tree.root.children, entry.1 = action ∧
    ∀ other ∈ tree.root.children, tree.entryVisits other ≤ tree.entryVisits entry

instance [DecidableEq Action] (tree : SearchTree Position Player Action) :
    DecidablePred tree.IsRobust :=
  fun action => inferInstanceAs (Decidable (∃ entry ∈ tree.root.children, entry.1 = action ∧
    ∀ other ∈ tree.root.children, tree.entryVisits other ≤ tree.entryVisits entry))

theorem mostVisitedChild?_eq_none :
    tree.mostVisitedChild? node = none ↔ node.children = [] := by
  cases children : node.children with
  | nil => simp [mostVisitedChild?, children]
  | cons first rest => simp [mostVisitedChild?, children]

theorem exists_mostVisitedChild? (tree : SearchTree Position Player Action)
    (nonempty : node.children ≠ []) :
    ∃ entry, tree.mostVisitedChild? node = some entry.2 ∧
      IsFirstMost tree.entryVisits node.children entry := by
  rw [mostVisitedChild?]
  split
  · rename_i childless
    exact absurd (List.map_eq_nil_iff.mp childless) nonempty
  · rename_i first rest visited
    have most := firstBest_isFirstMost first rest
    rw [← visited] at most
    rcases most.of_map with ⟨entry, winner, most⟩
    exact ⟨entry, by rw [← winner], most⟩

section Children

variable [DecidableEq Action]

theorem Explores.choices_split (explores : tree.Explores game start) :
    ∃ rest, game.choices start = tree.root.children.map (·.1) ++ rest := by
  rcases explores.in_order tree.at_zero with ⟨taken, order⟩
  rw [(explores.at_root tree.at_zero).1] at order
  exact ⟨(game.choices start).drop taken, by rw [order, List.take_append_drop]⟩

theorem Explores.one_le_entryVisits (explores : tree.Explores game start)
    (conserves : tree.ConservesVisits game count) {entry : Action × Nat}
    (mem : entry ∈ tree.root.children) : 1 ≤ tree.entryVisits entry := by
  rcases explores.of_child tree.at_zero mem with ⟨childNode, at_child, -, -⟩
  rw [entryVisits, visits_standing at_child]
  exact conserves.visited at_child (explores.lt_of_mem_children tree.at_zero mem).1

/-- While the root is not fully expanded, each of its children has been visited once. -/
theorem Explores.entryVisits_eq_one (explores : tree.Explores game start)
    (conserves : tree.ConservesVisits game count) (open_root : ¬tree.root.IsExpanded game)
    {entry : Action × Nat} (mem : entry ∈ tree.root.children) : tree.entryVisits entry = 1 := by
  apply le_antisymm
  · rcases explores.of_child tree.at_zero mem with ⟨childNode, at_child, -, -⟩
    rw [entryVisits, visits_standing at_child]
    by_contra more
    exact open_root (explores.revisited tree.at_zero mem at_child (by omega))
  · exact explores.one_le_entryVisits conserves mem

theorem Explores.length_children_le (explores : tree.Explores game start)
    (conserves : tree.ConservesVisits game count) :
    (tree.root.children.length : Int) ≤ tree.childVisits tree.root := by
  have le_sum := List.card_nsmul_le_sum (tree.root.children.map tree.entryVisits) 1 (by
    intro visits mem
    rcases List.mem_map.mp mem with ⟨entry, entry_mem, rfl⟩
    exact explores.one_le_entryVisits conserves entry_mem)
  rw [List.length_map, nsmul_one] at le_sum
  exact le_sum

theorem Explores.length_children_eq (explores : tree.Explores game start)
    (conserves : tree.ConservesVisits game count) (open_root : ¬tree.root.IsExpanded game) :
    (tree.root.children.length : Int) = tree.childVisits tree.root := by
  have sum_eq := List.sum_eq_card_nsmul (tree.root.children.map tree.entryVisits) 1 (by
    intro visits mem
    rcases List.mem_map.mp mem with ⟨entry, entry_mem, rfl⟩
    exact explores.entryVisits_eq_one conserves open_root entry_mem)
  rw [List.length_map, nsmul_one] at sum_eq
  exact sum_eq.symm

/-- After some iterations, the children of the root are that many of the first distinct actions. -/
theorem Explores.children_eq_take (explores : tree.Explores game start)
    (conserves : tree.ConservesVisits game count) :
    tree.root.children.map (·.1) = (game.choices start).take count := by
  have start_eq := (explores.at_root tree.at_zero).1
  by_cases choiceless : game.choices start = []
  · have childless := conserves.childless tree.at_zero (by rw [start_eq, choiceless])
    simp [childless, choiceless]
  · rcases explores.in_order tree.at_zero with ⟨taken, order⟩
    rw [start_eq] at order
    have length_eq : tree.root.children.length = min taken (game.choices start).length := by
      simpa using congrArg List.length order
    have visits_eq : (count : Int) = tree.childVisits tree.root := by
      rw [← conserves.visits_root tree.at_zero,
        conserves.visits_eq tree.at_zero (by rwa [start_eq])]
      simp
    rw [order, List.take_eq_take_iff]
    by_cases expanded : tree.root.IsExpanded game
    · have all_taken : (game.choices start).length ≤ tree.root.children.length := by
        have subset : game.choices start ⊆ tree.root.children.map (·.1) := by
          intro action mem
          exact expanded action (by rwa [start_eq])
        simpa using (List.subperm_of_subset Game.nodup_choices subset).length_le
      have enough := explores.length_children_le conserves
      omega
    · have once := explores.length_children_eq conserves expanded
      omega

/-- The earliest of the most visited children of the root is the earliest of their actions to be
enumerated. -/
theorem Explores.find?_isRobust (explores : tree.Explores game start)
    (turn : game.status start = .turn player) {entry : Action × Nat}
    (most : IsFirstMost tree.entryVisits tree.root.children entry) :
    (game.legal start player).toList.find? (tree.IsRobust ·) = some entry.1 := by
  have distinct : (tree.root.children.map (·.1)).Nodup := by
    rcases explores.choices_split with ⟨rest, split⟩
    exact (List.nodup_append.mp (split ▸ Game.nodup_choices)).1
  have robust : tree.IsRobust entry.1 :=
    ⟨entry, most.mem, rfl, fun other mem => most.le_of_mem mem⟩
  rcases explores.choices_split with ⟨rest, split⟩
  rcases most with ⟨before, after, children, before_less, -⟩
  rw [← find?_eraseDups, ← Game.choices_of_turn turn, List.find?_eq_some_iff_append]
  refine ⟨decide_eq_true robust, before.map (·.1), after.map (·.1) ++ rest, ?_, ?_⟩
  · rw [split, children]
    simp
  · intro action mem
    rcases List.mem_map.mp mem with ⟨other, other_mem, rfl⟩
    have among : other ∈ tree.root.children := by simp [children, other_mem]
    have fails : ¬tree.IsRobust other.1 := by
      rintro ⟨same, same_mem, action_eq, greatest⟩
      have same_eq := List.inj_on_of_nodup_map distinct same_mem among action_eq
      have le := greatest entry (by simp [children])
      rw [same_eq] at le
      exact absurd (before_less other other_mem) (not_lt.mpr le)
    simp [fails]

/-- What a search picks from a tree with children is the earliest robust action. -/
theorem Explores.exists_mostVisited_action (explores : tree.Explores game start)
    (turn : game.status start = .turn player) (nonempty : tree.root.children ≠ []) :
    ∃ child action, tree.mostVisitedChild? tree.root = some child ∧
      tree.nodes[child]?.bind (·.action) = some action ∧
      (game.legal start player).toList.find? (tree.IsRobust ·) = some action := by
  rcases tree.exists_mostVisitedChild? nonempty with ⟨entry, found, most⟩
  exact ⟨entry.2, entry.1, found, (explores.legal_of_child turn most.mem).1,
    explores.find?_isRobust turn most⟩

theorem Explores.children_ne_nil (explores : tree.Explores game start)
    (conserves : tree.ConservesVisits game count) (turn : game.status start = .turn player)
    (movable : (game.legal start player).toList ≠ []) (performed : count ≠ 0) :
    tree.root.children ≠ [] := by
  intro childless
  rcases List.exists_mem_of_ne_nil _ movable with ⟨action, legal⟩
  have listed : action ∈ game.choices start := (Game.mem_choices turn).mpr legal
  have choiceless : game.choices start = [] := by
    simpa [childless, performed] using (explores.children_eq_take conserves).symm
  simp [choiceless] at listed

end Children

end SearchTree

variable [DecidableEq Player] [DecidableEq Action] [Worded Action]
  {evaluator : Evaluator Memory Position Player} {deadline : Deadline} {valid : Memory → Prop}
  {effort : Effort Memory}

/-- After some iterations the root has a child for each of that many distinct legal actions, as far
as there are so many, and the search picks the earliest one with the most visits. It fails only if a
position that play leads to has a score too large for a double. A scorer here computes from its
arguments alone. -/
theorem pickMonteCarlo_robust {maxIterations : Option Int} {bound : Nat}
    (neverFails : evaluator.NeverFails valid)
    (bounded : iterationBound deadline maxIterations = some bound) (fit : valid effort.memory)
    {start : Position} {player : Player} (turn : game.status start = .turn player)
    (movable : (game.legal start player).toList ≠ []) :
    (∃ count tree, deadline.Admits effort.checks bound count ∧
      (monteCarlo game evaluator deadline scorer maxIterations player start).Returns effort
        (fun result _ => result = tree) ∧
      tree.root.visits = count ∧
      tree.root.children.map (·.1) = (game.legal start player).toList.eraseDups.take count ∧
      tree.root.children.length = min count (game.legal start player).toList.eraseDups.length ∧
      (pickMonteCarlo game evaluator deadline scorer maxIterations player start).Returns effort
        fun choice _ => (∃ action, choice = some action) ∧
          choice = if count = 0 then game.firstLegal start player
            else (game.legal start player).toList.find? (tree.IsRobust ·)) ∨
    (monteCarlo game evaluator deadline scorer maxIterations player start).fault? effort =
        some .integerTooLarge ∧
      (pickMonteCarlo game evaluator deadline scorer maxIterations player start).fault? effort =
        some .integerTooLarge ∧
      evaluator.Overflows game start valid := by
  have holds := And.intro (SearchTree.explores_ofRoot game start player)
    (SearchTree.conservesVisits_ofRoot game start player)
  have searched : (monteCarlo game evaluator deadline scorer maxIterations player start).ComesTo
      effort _ _ :=
    monteCarlo_iterates (neverFails.conserves scorer start) bounded
      ⟨neverFails.startSearch effort.memory fit, holds⟩
  rcases searched.cases with ⟨tree, after, ran, count, admits, ⟨-, explores, conserves⟩, -⟩ |
    ⟨_, after, ran, rfl, overflows⟩
  · left
    have children_eq := explores.children_eq_take conserves
    rw [Game.choices_of_turn turn] at children_eq
    refine ⟨count, tree, admits, ⟨tree, after, ran, rfl⟩, conserves.visits_root tree.at_zero,
      children_eq, by simpa using congrArg List.length children_eq, ?_⟩
    rw [pickMonteCarlo, SearchM.returns_bind]
    refine ⟨tree, after, ran, ?_⟩
    dsimp only
    by_cases unexpanded : count = 0
    · have childless : tree.root.children = [] := by simpa [unexpanded] using children_eq
      rw [SearchTree.mostVisitedChild?_eq_none.mpr childless, if_pos unexpanded]
      simp only [SearchM.returns_bind, SearchM.returns_note, SearchM.returns_pure]
      refine ⟨?_, trivial⟩
      rw [← Option.ne_none_iff_exists', ne_eq, Game.firstLegal_eq_none]
      exact movable
    · have nonempty := explores.children_ne_nil conserves turn movable unexpanded
      rcases explores.exists_mostVisited_action turn nonempty with
        ⟨child, action, found, stored, robust⟩
      rw [found, if_neg unexpanded, robust]
      dsimp only
      rw [stored]
      exact SearchM.returns_pure.mpr ⟨⟨action, rfl⟩, rfl⟩
  · right
    have failed := SearchM.fault?_of_run ran
    exact ⟨failed, SearchM.fault?_bind failed, overflows⟩

/-- A deadline that passes at the third question leaves two iterations, one for each of two actions
out of three. -/
theorem pickMonteCarlo_robust_nim :
    let start : Nim.Position := ⟨[2, 1], .one, none, false, by simp, by simp⟩
    let scorer := ChildScorer.uct1 (.real 1)
    let evaluator := Gauge.evaluator Nim.game
    let search := monteCarlo Nim.game evaluator (.atCheck 3) scorer (some 8) .one start
    let pick := pickMonteCarlo Nim.game evaluator (.atCheck 3) scorer (some 8) .one start
    evaluator.NeverFails (· = Nim.winLoss) ∧
      iterationBound (.atCheck 3) (some 8) = some 8 ∧
      Nim.game.status start = .turn .one ∧
      (Nim.game.legal start .one).toList ≠ [] ∧
      ((∃ count tree, Deadline.Admits (.atCheck 3) (Effort.start Nim.winLoss).checks 8 count ∧
          search.Returns (.start Nim.winLoss) (fun result _ => result = tree) ∧
          tree.root.visits = count ∧
          tree.root.children.map (·.1) =
            (Nim.game.legal start .one).toList.eraseDups.take count ∧
          tree.root.children.length =
            min count (Nim.game.legal start .one).toList.eraseDups.length ∧
          pick.Returns (.start Nim.winLoss) fun choice _ => (∃ action, choice = some action) ∧
            choice = if count = 0 then Nim.game.firstLegal start .one
              else (Nim.game.legal start .one).toList.find? (tree.IsRobust ·)) ∨
        search.fault? (.start Nim.winLoss) = some .integerTooLarge ∧
          pick.fault? (.start Nim.winLoss) = some .integerTooLarge ∧
          evaluator.Overflows Nim.game start (· = Nim.winLoss)) := by
  intro start scorer evaluator search pick
  have movable : (Nim.game.legal start .one).toList ≠ [] := by decide
  exact ⟨Nim.neverFails_winLoss, rfl, rfl, movable,
    pickMonteCarlo_robust Nim.neverFails_winLoss rfl rfl rfl movable⟩

/-- The nim-sum of two piles may be too large for a double, and then the first iteration breaks the
search off before anything is picked. -/
theorem pickMonteCarlo_robust_heavy :
    let start : Nim.Position := ⟨[1, Number.overflow], .one, none, false, by simp, by simp⟩
    let evaluator := Gauge.evaluator Nim.game
    evaluator.NeverFails (· = Nim.nimSum) ∧
      iterationBound .never (some 1) = some 1 ∧
      Nim.game.status start = .turn .one ∧
      Nim.game.firstLegal start .one = some ⟨0, 1⟩ ∧
      (pickMonteCarlo Nim.game evaluator .never (.uct1 (.real 1)) (some 1) .one start).fault?
        (.start Nim.nimSum) = some .integerTooLarge := by
  refine ⟨?_, rfl, rfl, rfl, by decide +kernel⟩
  constructor
  · rintro _ rfl
    rfl
  · rintro position side _ rfl
    exact ⟨_, _, rfl, rfl⟩

end GameSearch
