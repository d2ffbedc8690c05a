import GameSearch.Proofs.Agent.Contract

/-!
# Where a search scores

A search scores no positions but those that play leads to. So if no move leads out of a region, a
search that starts in it does the same with any two evaluators that agree there, and an evaluator
that fails elsewhere is as good as one that never fails.
-/

namespace GameSearch

variable {Memory Position Player Action : Type} {game : Game Position Player Action}
  {evaluator other : Evaluator Memory Position Player} {inside : Position → Prop}
  {deadline : Deadline} {position : Position} {player seeker mover : Player}

/-- Whether no move leads out of a region. -/
def Game.StaysIn (game : Game Position Player Action) (inside : Position → Prop) : Prop :=
  ∀ position player action next, inside position →
    game.play position player action = .ok next → inside next

/-- Whether two evaluators start searches alike and score the positions of a region alike. -/
structure Evaluator.AgreesOn (evaluator other : Evaluator Memory Position Player)
    (inside : Position → Prop) : Prop where
  startSearch : other.startSearch = evaluator.startSearch
  score : ∀ position, inside position → other.score position = evaluator.score position

/-- The same evaluator, which gives nothing for positions outside of a region. -/
def Evaluator.confined (evaluator : Evaluator Memory Position Player) (inside : Position → Prop)
    [DecidablePred inside] : Evaluator Memory Position Player where
  startSearch := evaluator.startSearch
  score position side memory :=
    if inside position then evaluator.score position side memory else (.ok 0, memory)

theorem Evaluator.agreesOn_confined (evaluator : Evaluator Memory Position Player)
    (inside : Position → Prop) [DecidablePred inside] :
    (evaluator.confined inside).AgreesOn evaluator inside where
  startSearch := rfl
  score position held := by
    funext side memory
    simp only [confined, if_pos held]

theorem Evaluator.AgreesOn.evaluate_eq (agrees : evaluator.AgreesOn other inside)
    (held : inside position) (side : Player) :
    SearchM.evaluate other position side = SearchM.evaluate evaluator position side := by
  unfold SearchM.evaluate
  rw [agrees.score position held]

theorem Evaluator.AgreesOn.startSearch_eq (agrees : evaluator.AgreesOn other inside) :
    SearchM.startSearch other = SearchM.startSearch evaluator := by
  unfold SearchM.startSearch
  rw [agrees.startSearch]

/-- What comes after an outcome matters only if the outcome is a value. -/
theorem SearchM.lift_bind_congr {α β : Type} {outcome : Except Fault α}
    {next otherNext : α → SearchM Memory β}
    (same : ∀ value, outcome = .ok value → otherNext value = next value) :
    (liftM outcome >>= otherNext) = (liftM outcome >>= next) := by
  cases outcome with
  | error fault => rfl
  | ok value => exact same value rfl

/-! ### Greedy search -/

theorem scoreMoves_congr (stays : game.StaysIn inside) (agrees : evaluator.AgreesOn other inside)
    (held : inside position) (moves : Moves Action) (best : Tracker Action) :
    scoreMoves game other position player moves best =
      scoreMoves game evaluator position player moves best := by
  induction moves generalizing best with
  | done => rfl
  | next action rest ih =>
      simp only [scoreMoves, ih]
      apply SearchM.lift_bind_congr
      intro next played
      rw [agrees.evaluate_eq (stays _ _ _ _ held played)]

/-! ### Tree search -/

theorem searchMoves_congr {child otherChild : Position → SearchM Memory (Tracker Action)}
    (stays : game.StaysIn inside) (held : inside position)
    (same : ∀ next, inside next → otherChild next = child next) {aim : Aim} (moves : Moves Action)
    (best : Tracker Action) :
    searchMoves game deadline otherChild position mover aim moves best =
      searchMoves game deadline child position mover aim moves best := by
  induction moves generalizing best with
  | done => rfl
  | next action rest ih =>
      simp only [searchMoves, ih]
      congr
      funext expired
      split
      · rfl
      · apply SearchM.lift_bind_congr
        intro next played
        rw [same next (stays _ _ _ _ held played)]

theorem searchMovesWithin_congr
    {child otherChild : Window → Position → SearchM Memory (Tracker Action)}
    (stays : game.StaysIn inside) (held : inside position)
    (same : ∀ window next, inside next → otherChild window next = child window next) {aim : Aim}
    (moves : Moves Action) (window : Window) (best : Tracker Action) :
    searchMovesWithin game deadline otherChild position mover aim moves window best =
      searchMovesWithin game deadline child position mover aim moves window best := by
  induction moves generalizing window best with
  | done => rfl
  | next action rest ih =>
      simp only [searchMovesWithin, ih]
      congr
      funext expired
      split
      · rfl
      · apply SearchM.lift_bind_congr
        intro next played
        rw [same window next (stays _ _ _ _ held played)]

theorem scoreLeaf_congr (agrees : evaluator.AgreesOn other inside) (held : inside position) :
    (scoreLeaf other seeker position : SearchM Memory (Tracker Action)) =
      scoreLeaf evaluator seeker position := by
  rw [scoreLeaf, scoreLeaf, agrees.evaluate_eq held]

section Tree

variable [DecidableEq Player]

theorem minimax_congr (stays : game.StaysIn inside) (agrees : evaluator.AgreesOn other inside)
    (plies : Nat) (held : inside position) :
    minimax game other deadline seeker plies position =
      minimax game evaluator deadline seeker plies position := by
  induction plies generalizing position with
  | zero => exact scoreLeaf_congr agrees held
  | succ plies ih =>
      rcases status : game.status position with mover | winner
      · simp only [minimax, status, scoreLeaf_congr agrees held,
          searchMoves_congr stays held fun next held => ih held]
      · simp only [minimax, status, scoreLeaf_congr agrees held]

theorem alphaBeta_congr (stays : game.StaysIn inside) (agrees : evaluator.AgreesOn other inside)
    (plies : Nat) (window : Window) (held : inside position) :
    alphaBeta game other deadline seeker plies window position =
      alphaBeta game evaluator deadline seeker plies window position := by
  induction plies generalizing position window with
  | zero => exact scoreLeaf_congr agrees held
  | succ plies ih =>
      rcases status : game.status position with mover | winner
      · simp only [alphaBeta, status, scoreLeaf_congr agrees held,
          searchMovesWithin_congr stays held fun window next held => ih window held]
      · simp only [alphaBeta, status, scoreLeaf_congr agrees held]

theorem TreeMethod.run_congr (method : TreeMethod) (stays : game.StaysIn inside)
    (agrees : evaluator.AgreesOn other inside) {depth : Int} (limited : 0 ≤ depth)
    (held : inside position) :
    method.run game other deadline depth seeker position =
      method.run game evaluator deadline depth seeker position := by
  rw [run_of_limited limited, run_of_limited limited]
  cases method with
  | minimax => exact minimax_congr stays agrees _ held
  | alphaBeta => exact alphaBeta_congr stays agrees _ .full held

end Tree

/-! ### Monte Carlo tree search -/

section MonteCarlo

variable [DecidableEq Action]

/-- Every node of an explored tree lies in the region that it starts in. -/
theorem SearchTree.Explores.position_inside {tree : SearchTree Position Player Action}
    {start : Position} {index : Nat} {node : SearchNode Position Player Action}
    (explores : tree.Explores game start) (stays : game.StaysIn inside) (held : inside start)
    (at_index : tree.nodes[index]? = some node) : inside node.position := by
  induction index using Nat.strongRecOn generalizing node with
  | ind index ih =>
      cases parent_eq : node.parent with
      | none =>
          have root := (explores.orphan_iff at_index).mp parent_eq
          subst root
          rwa [(explores.at_root at_index).1]
      | some parent =>
          rcases explores.of_parent at_index parent_eq with ⟨lower, parentNode, -, at_parent, -⟩
          rcases explores.played at_index parent_eq at_parent with ⟨-, action, -, played⟩
          exact stays _ _ _ _ (ih parent lower at_parent) played

/-- What an iteration scores lies in the region. -/
theorem SearchTree.Grows.position_inside {tree next : SearchTree Position Player Action}
    {start : Position} {leaf : Nat} (grows : tree.Grows game next leaf position) (explores : tree.Explores game start)
    (stays : game.StaysIn inside) (held : inside start) : inside position := by
  cases grows with
  | stays at_index => exact explores.position_inside stays held at_index
  | attaches at_index above turn untried played =>
      exact stays _ _ _ _ (explores.position_inside stays held at_index) played

variable [DecidableEq Player] [Worded Action] {scorer : ChildScorer}

theorem iterate_congr (stays : game.StaysIn inside) (agrees : evaluator.AgreesOn other inside)
    (held : inside position) {remaining done : Nat} {tree : SearchTree Position Player Action}
    (explores : tree.Explores game position) :
    iterate game other deadline scorer remaining done tree =
      iterate game evaluator deadline scorer remaining done tree := by
  induction remaining generalizing done tree with
  | zero => rfl
  | succ remaining ih =>
      rcases explores.toLinked.grows game scorer with ⟨next, leaf, reached, grown, grows⟩
      simp only [iterate]
      congr
      funext expired
      split
      · rfl
      · apply SearchM.lift_bind_congr
        intro found found_eq
        rw [grown, Except.ok.injEq] at found_eq
        subst found_eq
        simp only [agrees.evaluate_eq (grows.position_inside explores stays held)]
        congr
        funext reward
        apply SearchM.lift_bind_congr
        intro _ counted
        have floating := (grows.explores explores).floating
        have fits := floating.fits_of_backup grows.leaf_lt counted
        simp only [floating.backup_eq grows.leaf_lt fits]
        exact ih (explores.explores_credit grows reward)

theorem monteCarlo_congr (stays : game.StaysIn inside) (agrees : evaluator.AgreesOn other inside)
    (held : inside position) (maxIterations : Option Int) :
    monteCarlo game other deadline scorer maxIterations player position =
      monteCarlo game evaluator deadline scorer maxIterations player position := by
  have explores := SearchTree.explores_ofRoot game position player
  simp only [monteCarlo, agrees.startSearch_eq, iterate_congr stays agrees held explores]

/-- Every strategy whose depth is limited picks the same with both evaluators. -/
theorem Strategy.pick_congr (strategy : Strategy) (stays : game.StaysIn inside)
    (agrees : evaluator.AgreesOn other inside) (ends : strategy.EndsBy deadline)
    (held : inside position) :
    strategy.pick game other deadline player position =
      strategy.pick game evaluator deadline player position := by
  cases strategy with
  | singleLevel => simp only [pick, pickGreedy, scoreMoves_congr stays agrees held]
  | tree method depth =>
      simp only [pick, TreeMethod.pick, method.run_congr stays agrees ends held]
  | monteCarlo scorer maxIterations =>
      simp only [pick, pickMonteCarlo, monteCarlo_congr stays agrees held]

end MonteCarlo

end GameSearch
