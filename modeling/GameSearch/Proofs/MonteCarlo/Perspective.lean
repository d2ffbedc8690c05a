import GameSearch.Proofs.Gauge.Opposite
import GameSearch.Proofs.MonteCarlo.Exploration
import GameSearch.Proofs.Number.Opposite

/-!
# The perspective of Monte Carlo tree search

A node keeps its rewards from the point of view of the side that acted into it, so it does not tell
for whom the tree is searched. The root alone belongs to the searching player. Two searches for the
two players of a game therefore build the same tree, as long as their evaluator is opposed: every
reward changes its sign once in the evaluator and once more when it is counted. An integer that is too
large to be counted is so with either sign, and breaks off both searches at the same point.
-/

namespace GameSearch

variable {Memory Position Player Action : Type}

/-- A reward that changes its sign with the player counts the same for every side. -/
theorem SearchNode.creditIf_opposite [DecidableEq Player]
    {node : SearchNode Position Player Action} {first second : Player} {counted : Bool}
    {reward : Int} (distinct : first ≠ second) (side : node.side = first ∨ node.side = second) :
    node.creditIf counted second (.int (-reward)) = node.creditIf counted first (.int reward) := by
  have same_share : (if node.side = second then Number.int (-reward) else -Number.int (-reward)) =
      if node.side = first then Number.int reward else -Number.int reward := by
    rw [Number.neg_int, Number.neg_int, neg_neg]
    rcases side with rfl | rfl
    · rw [if_neg distinct, if_pos rfl]
    · rw [if_pos rfl, if_neg distinct.symm]
  cases counted with
  | false => rw [creditIf_false, creditIf_false]
  | true => rw [creditIf_true, creditIf_true, credit, credit, same_share]

namespace SearchTree

variable {tree mirror next mirrorNext : SearchTree Position Player Action}
  {node : SearchNode Position Player Action} {position start : Position} {index parent child : Nat}
  {side first second : Player} {action : Action}

/-- Whether the trees of two players differ in nothing but the side and the reward of their roots.
The root of the second tree belongs to its player, and the rewards are opposite. -/
structure Mirrors (tree mirror : SearchTree Position Player Action) : Prop where
  size_eq : mirror.size = tree.size
  at_index : ∀ index ≠ 0, mirror.nodes[index]? = tree.nodes[index]?
  root_eq : mirror.root =
    { tree.root with side := mirror.player, reward := mirror.root.reward }
  reward_opposite : tree.root.reward.Opposite mirror.root.reward

/-- A node differs from its counterpart at most in its side and its reward. -/
theorem Mirrors.exists_at (mirrors : tree.Mirrors mirror)
    (at_index : tree.nodes[index]? = some node) :
    ∃ side reward, mirror.nodes[index]? = some { node with side, reward } := by
  by_cases root : index = 0
  · subst root
    rcases Option.some.inj ((at_zero tree).symm.trans at_index) with rfl
    refine ⟨mirror.player, mirror.root.reward, ?_⟩
    rw [at_zero, mirrors.root_eq]
  · exact ⟨node.side, node.reward, (mirrors.at_index index root).trans at_index⟩

theorem Mirrors.pathToRoot_eq (mirrors : tree.Mirrors mirror) :
    mirror.pathToRoot index = tree.pathToRoot index := by
  apply pathToRoot_congr
  intro passed _
  cases at_passed : tree.nodes[passed]? with
  | none =>
      have beyond := Array.getElem?_eq_none_iff.mp at_passed
      have outside : mirror.nodes[passed]? = none :=
        Array.getElem?_eq_none_iff.mpr (mirrors.size_eq.trans_le beyond)
      rw [outside]
  | some node =>
      rcases mirrors.exists_at at_passed with ⟨side, reward, at_mirror⟩
      rw [at_mirror]
      rfl

/-! ### Selection -/

/-- A scorer sees the children of a node, and none of them is the root. -/
theorem Mirrors.bestChild?_eq [DecidableEq Action] (mirrors : tree.Mirrors mirror)
    (linked : tree.Linked) (scorer : ChildScorer) (at_index : tree.nodes[index]? = some node)
    (side : Player) (reward : Number) :
    mirror.bestChild? scorer { node with side, reward } = tree.bestChild? scorer node := by
  have standing_eq : ∀ child ∈ node.children.map (·.2),
      mirror.standing child = tree.standing child := by
    intro child mem
    rcases List.mem_map.mp mem with ⟨⟨action, number⟩, entry_mem, rfl⟩
    have positive := (linked.lt_of_mem_children at_index entry_mem).1
    rw [standing, standing, mirrors.at_index number (by omega)]
  simp only [bestChild?, List.map_congr_left standing_eq]

/-- A descent goes the same way in both trees. -/
theorem Mirrors.select_of_descends [DecidableEq Action] (mirrors : tree.Mirrors mirror)
    (linked : tree.Linked) {game : Game Position Player Action} {scorer : ChildScorer}
    {selection : Selection Position Player Action}
    (descends : tree.Descends game scorer index selection) (bound : index < mirror.nodes.size) :
    mirror.select game scorer index bound = selection := by
  have counterpart {index : Nat} {node : SearchNode Position Player Action}
      (at_index : tree.nodes[index]? = some node) (bound : index < mirror.nodes.size) :
      ∃ side reward, mirror.nodes[index] = { node with side, reward } ∧
        mirror.bestChild? scorer { node with side, reward } = tree.bestChild? scorer node := by
    rcases mirrors.exists_at at_index with ⟨side, reward, at_mirror⟩
    exact ⟨side, reward, (Array.getElem?_eq_some_iff.mp at_mirror).2,
      mirrors.bestChild?_eq linked scorer at_index side reward⟩
  induction descends with
  | ended at_index ended =>
      rcases counterpart at_index bound with ⟨side, reward, at_mirror, -⟩
      rw [select]
      simp only [at_mirror, ended]
  | expansion at_index turn untried =>
      rcases counterpart at_index bound with ⟨side, reward, at_mirror, -⟩
      rw [← Game.firstUntried_eq turn] at untried
      rw [select]
      simp only [at_mirror, turn, untried]
  | stuck at_index turn expanded childless =>
      rcases counterpart at_index bound with ⟨side, reward, at_mirror, same_best⟩
      have tried := (Game.firstUntried_eq_none turn).mpr expanded
      have unfound : tree.bestChild? scorer _ = none := bestChild?_eq_none.mpr childless
      rw [select]
      simp only [at_mirror, turn, tried, same_best, unfound]
  | child at_index turn expanded best _ ih =>
      rcases counterpart at_index bound with ⟨side, reward, at_mirror, same_best⟩
      have tried := (Game.firstUntried_eq_none turn).mpr expanded
      rcases mem_children_of_bestChild? best with ⟨action, mem⟩
      rcases linked.lt_of_mem_children at_index mem with ⟨lower, inside⟩
      rw [select]
      simp only [at_mirror, turn, tried, same_best, best]
      rw [dif_pos ⟨lower, inside.trans_eq mirrors.size_eq.symm⟩]
      exact ih (inside.trans_eq mirrors.size_eq.symm)

/-! ### Growth -/

theorem Mirrors.attach [DecidableEq Action] (mirrors : tree.Mirrors mirror)
    (attaches : tree.Attaches next parent action position side)
    (other : mirror.Attaches mirrorNext parent action position side) :
    next.Mirrors mirrorNext := by
  have size_eq : mirror.nodes.size = tree.nodes.size := mirrors.size_eq
  have next_size_eq : mirrorNext.nodes.size = next.nodes.size := by
    rw [attaches.size_eq, other.size_eq, size_eq]
  constructor
  · exact next_size_eq
  · intro index inner
    rcases Nat.lt_trichotomy index tree.nodes.size with lower | rfl | beyond
    · rw [attaches.at_old index lower, other.at_old index (lower.trans_eq size_eq.symm),
        mirrors.at_index index inner, size_eq]
    · rw [attaches.at_new, ← size_eq, other.at_new]
    · have outside : next.nodes.size ≤ index := attaches.size_eq.trans_le beyond
      rw [Array.getElem?_eq_none outside, Array.getElem?_eq_none (next_size_eq.trans_le outside)]
  · rw [attaches.root_eq, other.root_eq, mirrors.root_eq, other.player_eq]
    simp only [SearchNode.attachIf, size_eq]
  · rw [attaches.root_eq, other.root_eq]
    exact mirrors.reward_opposite

variable [DecidableEq Action] [Worded Action]

theorem Mirrors.exists_addChild (mirrors : tree.Mirrors mirror)
    (added : tree.addChild parent action position side = .ok (next, child)) :
    ∃ mirrorNext, mirror.addChild parent action position side = .ok (mirrorNext, child) ∧
      next.Mirrors mirrorNext ∧ mirrorNext.player = mirror.player := by
  rcases attaches_of_addChild added with ⟨rfl, attaches⟩
  rcases attaches.new_action with ⟨node, at_parent, new_action⟩
  rcases mirrors.exists_at at_parent with ⟨_, _, at_mirror⟩
  rcases exists_attaches at_mirror new_action position side with
    ⟨mirrorNext, otherAdded, otherAttaches⟩
  refine ⟨mirrorNext, ?_, mirrors.attach attaches otherAttaches, otherAttaches.player_eq⟩
  have size_eq : mirror.nodes.size = tree.nodes.size := mirrors.size_eq
  rw [otherAdded, size_eq]

theorem Mirrors.exists_grow (mirrors : tree.Mirrors mirror) (linked : tree.Linked)
    {game : Game Position Player Action} {scorer : ChildScorer} {leaf : Nat}
    (grown : tree.grow game scorer = .ok (next, leaf, position)) :
    ∃ mirrorNext, mirror.grow game scorer = .ok (mirrorNext, leaf, position) ∧
      next.Mirrors mirrorNext ∧ mirrorNext.player = mirror.player := by
  have descends := linked.descends game scorer tree.nonempty
  rw [grow] at grown ⊢
  rw [mirrors.select_of_descends linked descends mirror.nonempty]
  cases selected : tree.select game scorer 0 tree.nonempty with
  | leaf index position =>
      rw [selected] at grown
      cases grown
      exact ⟨mirror, rfl, mirrors, rfl⟩
  | expansion index old side action =>
      simp only [selected] at grown ⊢
      rcases played : game.play old side action with fault | reached
      · rw [played] at grown
        cases grown
      · rw [played] at grown
        rcases added : tree.addChild index action reached side with fault | ⟨attached, child⟩
        · simp [added, bind, Except.bind] at grown
        · simp only [added, bind, Except.bind, pure, Except.pure, Except.ok.injEq,
            Prod.mk.injEq] at grown
          rcases grown with ⟨rfl, rfl, rfl⟩
          rcases mirrors.exists_addChild added with ⟨mirrorNext, otherAdded, grown⟩
          refine ⟨mirrorNext, ?_, grown⟩
          simp only [otherAdded, bind, Except.bind, pure, Except.pure]

/-! ### Counting rewards -/

omit [Worded Action]

variable {game : Game Position Player Action}

theorem Explores.side_eq (explores : tree.Explores game start)
    (between : game.IsBetween first second) (at_index : tree.nodes[index]? = some node)
    (inner : index ≠ 0) : node.side = first ∨ node.side = second := by
  cases parent_eq : node.parent with
  | none => exact absurd ((explores.orphan_iff at_index).mp parent_eq) inner
  | some parent =>
      rcases explores.of_parent at_index parent_eq with ⟨-, parentNode, -, at_parent, -⟩
      exact between.mover _ _ (explores.played at_index parent_eq at_parent).1

/-- Whether the searches of two players have come to trees that mirror each other. -/
structure Parallel (game : Game Position Player Action) (start : Position)
    (first second : Player) (tree mirror : SearchTree Position Player Action) : Prop where
  explores : tree.Explores game start
  owner : tree.player = first
  otherOwner : mirror.player = second
  mirrors : tree.Mirrors mirror

theorem parallel_ofRoot (game : Game Position Player Action) (start : Position)
    (first second : Player) : Parallel game start first second (ofRoot start first)
      (ofRoot start second) := by
  refine ⟨explores_ofRoot game start first, rfl, rfl, rfl, ?_, rfl, .real (.zero _ _)⟩
  intro index inner
  cases index with
  | zero => exact absurd rfl inner
  | succ index => rfl

variable [DecidableEq Player]

theorem Mirrors.credit (mirrors : tree.Mirrors mirror) (explores : tree.Explores game start)
    (between : game.IsBetween first second) (owner : tree.player = first)
    (otherOwner : mirror.player = second) (leaf : Nat) (reward : Int) :
    (tree.credit leaf (.int reward)).Mirrors (mirror.credit leaf (.int (-reward))) := by
  have root_side : tree.root.side = tree.player := (explores.at_root (at_zero tree)).2
  have mirror_side : mirror.root.side = mirror.player := by rw [mirrors.root_eq]
  constructor
  · rw [size_credit, size_credit]
    exact mirrors.size_eq
  · intro index inner
    rw [getElem?_credit, getElem?_credit, mirrors.at_index index inner, mirrors.pathToRoot_eq,
      owner, otherOwner]
    cases at_index : tree.nodes[index]? with
    | none => rw [Option.map_none, Option.map_none]
    | some node =>
        exact congrArg some
          (SearchNode.creditIf_opposite between.distinct (explores.side_eq between at_index inner))
  · -- At the root the sides differ, so the visits are compared apart from the rewards.
    rw [root_credit, root_credit, mirrors.pathToRoot_eq, player_credit]
    have root_eq := mirrors.root_eq
    generalize mirror.root.reward = kept at root_eq
    rw [root_eq]
    cases decide (0 ∈ tree.pathToRoot leaf) with
    | false => simp only [SearchNode.creditIf_false]
    | true => simp only [SearchNode.creditIf_true, SearchNode.credit]
  · rw [root_credit, root_credit, mirrors.pathToRoot_eq]
    cases decide (0 ∈ tree.pathToRoot leaf) with
    | false => exact mirrors.reward_opposite
    | true =>
        simp only [SearchNode.creditIf_true, SearchNode.credit, if_true, root_side, mirror_side]
        exact mirrors.reward_opposite.add (.int reward)

omit [DecidableEq Action] [DecidableEq Player] in
theorem Mirrors.floating (mirrors : tree.Mirrors mirror) (floating : tree.Floating) :
    mirror.Floating := by
  intro index node at_index
  by_cases root : index = 0
  · subst root
    rcases Option.some.inj ((at_zero mirror).symm.trans at_index) with rfl
    rcases floating 0 tree.root (at_zero tree) with ⟨total, sum⟩
    have opposite := mirrors.reward_opposite
    rw [sum] at opposite
    rcases opposite.exists_real with ⟨other, otherSum⟩
    exact ⟨other, otherSum⟩
  · rw [mirrors.at_index index root] at at_index
    exact floating index node at_index

/-- An iteration scores the same position in both trees, and opposite rewards keep them alike. -/
theorem Parallel.exists_grow [Worded Action]
    (parallel : Parallel game start first second tree mirror)
    (between : game.IsBetween first second) (scorer : ChildScorer) :
    ∃ next mirrorNext leaf position, tree.grow game scorer = .ok (next, leaf, position) ∧
      mirror.grow game scorer = .ok (mirrorNext, leaf, position) ∧ next.player = first ∧
      mirrorNext.player = second ∧ (∃ history, game.Line start history position) ∧
      next.Floating ∧ mirrorNext.Floating ∧ leaf < next.nodes.size ∧
      leaf < mirrorNext.nodes.size ∧ ∀ reward : Int, Parallel game start first second
        (next.credit leaf (.int reward)) (mirrorNext.credit leaf (.int (-reward))) := by
  have linked := parallel.explores.toLinked
  rcases linked.grows game scorer with ⟨next, leaf, position, grown, grows⟩
  rcases parallel.mirrors.exists_grow linked grown with
    ⟨mirrorNext, otherGrown, mirrors, player_eq⟩
  have owner := grows.player_eq.trans parallel.owner
  have otherOwner := player_eq.trans parallel.otherOwner
  have explores := grows.explores parallel.explores
  rcases (grows.exists_line parallel.explores).1 with ⟨history, line, -⟩
  refine ⟨next, mirrorNext, leaf, position, grown, otherGrown, owner, otherOwner, ⟨history, line⟩,
    explores.floating, mirrors.floating explores.floating, grows.leaf_lt,
    grows.leaf_lt.trans_eq mirrors.size_eq.symm, ?_⟩
  intro reward
  refine ⟨explores.credit (grows.ready parallel.explores) _, player_credit.trans owner,
    player_credit.trans otherOwner, ?_⟩
  exact mirrors.credit explores between owner otherOwner leaf reward

end SearchTree

open SearchM

variable [DecidableEq Player] [DecidableEq Action] [Worded Action]
  {game : Game Position Player Action} {evaluator : Evaluator Memory Position Player}
  {deadline : Deadline} {scorer : ChildScorer} {valid : Memory → Prop} {start : Position}
  {first second : Player}

theorem iterate_inStep (between : game.IsBetween first second)
    (opposes : evaluator.Opposes valid first second) {remaining done : Nat}
    {tree mirror : SearchTree Position Player Action}
    (parallel : SearchTree.Parallel game start first second tree mirror) :
    (iterate game evaluator deadline scorer remaining done tree).InStepUnless
      (iterate game evaluator deadline scorer remaining done mirror) valid
      (fun result other => result.2 = other.2 ∧
        SearchTree.Parallel game start first second result.1 other.1)
      fun fault => fault = .integerTooLarge ∧ evaluator.Overflows game start valid := by
  induction remaining generalizing done tree mirror with
  | zero => exact (inStep_pure ⟨rfl, parallel⟩).unless
  | succ remaining ih =>
      rcases parallel.exists_grow between scorer with ⟨next, mirrorNext, leaf, position, grown,
        otherGrown, owner, otherOwner, ⟨history, line⟩, floating, otherFloating, bound, otherBound,
        parallel_credit⟩
      simp only [iterate]
      apply (inStep_expired deadline).unless.bind
      rintro passed _ rfl
      cases passed with
      | true => exact (inStep_pure ⟨rfl, parallel⟩).unless
      | false =>
          apply (inStep_lift grown otherGrown).unless.bind
          rintro _ _ ⟨rfl, rfl⟩
          simp only [owner, otherOwner]
          apply (inStep_evaluate opposes).unless.bind
          rintro _ _ ⟨reward, memory, after, rfl, rfl, fit, scored⟩
          have same_fits : (Number.int (-reward)).fits = (Number.int reward).fits :=
            Number.fits_neg (.int reward)
          cases fits : (Number.int reward).fits with
          | true =>
              simp only [floating.backup_eq bound fits,
                otherFloating.backup_eq otherBound (same_fits.trans fits)]
              apply (inStep_lift rfl rfl).unless.bind
              rintro _ _ -
              exact ih (parallel_credit reward)
          | false =>
              simp only [floating.backup_of_not_fits bound fits,
                otherFloating.backup_of_not_fits otherBound (same_fits.trans fits)]
              have overflows : evaluator.Overflows game start valid := by
                refine ⟨history, position, first, memory, line, fit, ?_⟩
                rw [scored]
                exact Number.asDouble_of_not_fits fits
              let refused : SearchM Memory Unit :=
                liftM (.error .integerTooLarge : Except Fault Unit)
              have fails : refused.InStepUnless refused valid (fun _ _ => False) fun fault =>
                  fault = .integerTooLarge ∧ evaluator.Overflows game start valid :=
                inStepUnless_lift_error ⟨rfl, overflows⟩
              exact fails.bind fun _ _ => False.elim

theorem monteCarlo_inStep (between : game.IsBetween first second)
    (opposes : evaluator.Opposes valid first second) {maxIterations : Option Int} {bound : Nat}
    (bounded : iterationBound deadline maxIterations = some bound) :
    (monteCarlo game evaluator deadline scorer maxIterations first start).InStepUnless
      (monteCarlo game evaluator deadline scorer maxIterations second start) valid
      (SearchTree.Parallel game start first second)
      fun fault => fault = .integerTooLarge ∧ evaluator.Overflows game start valid := by
  simp only [monteCarlo, bounded]
  apply (inStep_startSearch opposes).unless.bind
  rintro _ _ -
  apply (iterate_inStep between opposes (SearchTree.parallel_ofRoot game start first second)).bind
  rintro ⟨tree, iterations⟩ ⟨mirror, _⟩ ⟨rfl, parallel⟩
  have visits_eq : mirror.root.visits = tree.root.visits := by rw [parallel.mirrors.root_eq]
  simp only [parallel.mirrors.size_eq, visits_eq]
  apply (inStep_note _ _ _).unless.bind
  rintro _ _ -
  exact (inStep_pure parallel).unless

/-- Monte Carlo tree search does not depend on whose perspective it searches from. From the same
memory of an opposed evaluator, the searches for both players build the same tree up to the side and
the sign of the reward at its root, and they leave the same effort behind. If a position that play
leads to has a score too large for a double, both may fail instead, with the same effort. A scorer
here computes from its arguments alone. -/
theorem monteCarlo_opposite (between : game.IsBetween first second)
    (opposes : evaluator.Opposes valid first second) {maxIterations : Option Int} {bound : Nat}
    (bounded : iterationBound deadline maxIterations = some bound) {effort : Effort Memory}
    (fit : valid effort.memory) :
    (∃ tree mirror after,
      (monteCarlo game evaluator deadline scorer maxIterations first start).Yields effort tree
        after ∧
      (monteCarlo game evaluator deadline scorer maxIterations second start).Yields effort mirror
        after ∧
      tree.player = first ∧ mirror.player = second ∧ tree.Mirrors mirror ∧
      mirror.root.reward.extent = (-tree.root.reward).extent) ∨
    ∃ after,
      (monteCarlo game evaluator deadline scorer maxIterations first start).run.run effort =
        (.error .integerTooLarge, after) ∧
      (monteCarlo game evaluator deadline scorer maxIterations second start).run.run effort =
        (.error .integerTooLarge, after) ∧
      evaluator.Overflows game start valid := by
  rcases monteCarlo_inStep between opposes bounded effort fit with
    ⟨tree, mirror, after, ran, otherRan, -, parallel⟩ | ⟨_, after, ran, otherRan, rfl, overflows⟩
  · refine .inl ⟨tree, mirror, after, ran, otherRan, parallel.owner, parallel.otherOwner,
      parallel.mirrors, ?_⟩
    rw [parallel.mirrors.reward_opposite.extent_eq,
      (Number.opposite_neg tree.root.reward).extent_eq]
  · exact .inr ⟨after, ran, otherRan, overflows⟩

/-- Twice the outcome plus a random playout of at most three moves, for eight iterations. -/
theorem monteCarlo_opposite_nim :
    let start : Nim.Position := ⟨[2, 1], .one, none, false, by simp, by simp⟩
    let gauge : Gauge Nim.Position Nim.Player :=
      .plus (.plus .empty (.int 2) Nim.winLoss) (.int 1) (.ofSeeding (.fixed 7) (some 3))
    let search := fun player : Nim.Player =>
      monteCarlo Nim.game (Gauge.evaluator Nim.game) .never (.uct1 (.real 1)) (some 8) player start
    Nim.game.IsBetween .one .two ∧
      (Gauge.evaluator Nim.game).Opposes (Gauge.ZeroSum .one .two) .one .two ∧
      iterationBound .never (some 8) = some 8 ∧ gauge.ZeroSum .one .two ∧
      ((∃ tree mirror after, (search .one).Yields (.start gauge) tree after ∧
          (search .two).Yields (.start gauge) mirror after ∧
          tree.player = .one ∧ mirror.player = .two ∧ tree.Mirrors mirror ∧
          mirror.root.reward.extent = (-tree.root.reward).extent) ∨
        ∃ after, (search .one).run.run (.start gauge) = (.error .integerTooLarge, after) ∧
          (search .two).run.run (.start gauge) = (.error .integerTooLarge, after) ∧
          (Gauge.evaluator Nim.game).Overflows Nim.game start (Gauge.ZeroSum .one .two)) := by
  intro start gauge search
  have zeroSum : gauge.ZeroSum .one .two :=
    .plus 1 (.plus 2 .empty Nim.zeroSum_winLoss) (.playout (.fixed 7) (some 3) (.ofSeed 7))
  exact ⟨Nim.isBetween, Nim.opposes_zeroSum, rfl, zeroSum,
    monteCarlo_opposite Nim.isBetween Nim.opposes_zeroSum rfl zeroSum⟩

/-- Wins and losses with a weight too large for a double are opposed as well, but there is no tree for
either player. -/
theorem monteCarlo_opposite_heavy :
    let start : Nim.Position := ⟨[1], .one, none, false, by simp, by simp⟩
    let search := fun player : Nim.Player =>
      monteCarlo Nim.game (Gauge.evaluator Nim.game) .never (.uct1 (.real 1)) (some 1) player start
    Nim.game.IsBetween .one .two ∧
      (Gauge.evaluator Nim.game).Opposes (Gauge.ZeroSum .one .two) .one .two ∧
      iterationBound .never (some 1) = some 1 ∧ Nim.heavyWinLoss.ZeroSum .one .two ∧
      ∀ player, ((search player).run.run (.start Nim.heavyWinLoss)).1 =
        .error .integerTooLarge := by
  intro start search
  have failed : ∀ player,
      (search player).fault? (.start Nim.heavyWinLoss) = some .integerTooLarge := by
    rintro (_ | _)
    · decide +kernel
    · decide +kernel
  exact ⟨Nim.isBetween, Nim.opposes_zeroSum, rfl,
    .plus Number.overflow .empty Nim.zeroSum_winLoss, fun player => result_eq_error (failed player)⟩

end GameSearch
