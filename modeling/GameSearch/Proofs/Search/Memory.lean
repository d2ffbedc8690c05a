import GameSearch.Proofs.Search.Returns
import GameSearch.Strategy
import Mathlib.Data.List.Forall2

/-!
# What a search leaves of a memory

A search gets at the memory of its evaluator only by starting it and by having positions scored. So
whatever these two keep is kept by a whole search, and also by one that fails on the way.
-/

namespace GameSearch

variable {Memory Position Player Action : Type} {holds : Memory → Prop}

/-- Whether a condition on the memory of an evaluator outlasts the start of a search and every
score, be it a fault. -/
structure Evaluator.Keeps (evaluator : Evaluator Memory Position Player)
    (holds : Memory → Prop) : Prop where
  startSearch : ∀ memory, holds memory → holds (evaluator.startSearch memory)
  score : ∀ position side memory, holds memory → holds (evaluator.score position side memory).2

theorem Evaluator.Keeps.onlyAtEnds {evaluator : Evaluator Memory Position Player}
    (keeps : evaluator.Keeps holds) (game : Game Position Player Action) :
    (evaluator.onlyAtEnds game).Keeps holds := by
  refine ⟨keeps.startSearch, ?_⟩
  intro position side memory fit
  simp only [Evaluator.onlyAtEnds]
  split
  · exact keeps.score position side memory fit
  · split
    · exact keeps.score position side memory fit
    · exact fit

theorem exists_right_of_forall₂ {α β : Type} {related : α → β → Prop} {items : List α}
    {values : List β} (all : List.Forall₂ related items values) {item : α} (mem : item ∈ items) :
    ∃ value ∈ values, related item value := by
  induction all with
  | nil => cases mem
  | cons here _ ih =>
      rcases List.mem_cons.mp mem with rfl | mem
      · exact ⟨_, List.mem_cons_self, here⟩
      · rcases ih mem with ⟨value, there, holds⟩
        exact ⟨value, List.mem_cons_of_mem _ there, holds⟩

namespace SearchM

variable {α β : Type}

/-- Whether a condition on the memory outlasts a search, be it that the search fails. -/
def Keeps (search : SearchM Memory α) (holds : Memory → Prop) : Prop :=
  ∀ effort, holds effort.memory → holds (search.run.run effort).2.memory

theorem keeps_pure (value : α) : (pure value : SearchM Memory α).Keeps holds :=
  fun _ fit => fit

theorem keeps_throw (fault : Fault) : (throw fault : SearchM Memory α).Keeps holds :=
  fun _ fit => fit

/-- What a search has left behind is kept by what comes after it. -/
theorem holds_bind (holds : Memory → Prop) {search : SearchM Memory α}
    {next : α → SearchM Memory β} {effort : Effort Memory} (first : holds (search.run.run effort).2.memory)
    (second : ∀ value, (next value).Keeps holds) :
    holds ((search >>= next).run.run effort).2.memory := by
  rw [run_bind]
  rcases ran : search.run.run effort with ⟨fault | value, after⟩
  · rwa [ran] at first
  · rw [ran] at first
    exact second value after first

theorem Keeps.bind {search : SearchM Memory α} {next : α → SearchM Memory β}
    (first : search.Keeps holds) (second : ∀ value, (next value).Keeps holds) :
    (search >>= next).Keeps holds :=
  fun effort fit => holds_bind holds (first effort fit) second

theorem Keeps.and {other : Memory → Prop} {search : SearchM Memory α} (keeps : search.Keeps holds)
    (also : search.Keeps other) : search.Keeps fun memory => holds memory ∧ other memory :=
  fun effort fit => ⟨keeps effort fit.1, also effort fit.2⟩

theorem Keeps.map {search : SearchM Memory α} (change : α → β) (keeps : search.Keeps holds) :
    (change <$> search).Keeps holds := by
  rw [map_eq_pure_bind]
  exact keeps.bind fun value => keeps_pure (change value)

/-- A loop over a list that returns has run its body for every item, each time with a memory that
still meets the condition. -/
theorem forall₂_of_mapM {body : α → SearchM Memory β} (keeps : ∀ item, (body item).Keeps holds)
    {items : List α} {values : List β} {effort after : Effort Memory}
    (ran : (items.mapM body).Yields effort values after) (fit : holds effort.memory) :
    List.Forall₂ (fun item value => ∃ before later, holds before.memory ∧
      (body item).Yields before value later) items values := by
  induction items generalizing values effort with
  | nil =>
      rw [List.mapM_nil] at ran
      rcases yields_pure.mp ran with ⟨rfl, -⟩
      exact .nil
  | cons item items ih =>
      rw [List.mapM_cons] at ran
      rcases yields_bind.mp ran with ⟨value, between, first, others⟩
      rcases yields_bind.mp others with ⟨rest, last, second, done⟩
      rcases yields_pure.mp done with ⟨rfl, rfl⟩
      have kept := keeps item effort fit
      unfold Yields at first
      rw [first] at kept
      exact .cons ⟨effort, between, fit, first⟩ (ih second kept)

theorem keeps_ite {condition : Bool} {search rest : SearchM Memory α} (first : search.Keeps holds)
    (second : rest.Keeps holds) : (if condition then search else rest).Keeps holds := by
  cases condition with
  | true => exact first
  | false => exact second

theorem keeps_lift (outcome : Except Fault α) :
    (liftM outcome : SearchM Memory α).Keeps holds := by
  cases outcome with
  | error fault => exact keeps_throw fault
  | ok value => exact keeps_pure value

theorem keeps_expired (deadline : Deadline) :
    (expired deadline : SearchM Memory Bool).Keeps holds := fun _ fit => fit

theorem keeps_note (level : Level) (topic : Topic) (text : String) :
    (note level topic text : SearchM Memory Unit).Keeps holds := fun _ fit => fit

theorem keeps_startSearch {evaluator : Evaluator Memory Position Player}
    (keeps : evaluator.Keeps holds) : (startSearch evaluator).Keeps holds :=
  fun effort fit => keeps.startSearch effort.memory fit

theorem keeps_evaluate {evaluator : Evaluator Memory Position Player}
    (keeps : evaluator.Keeps holds) (position : Position) (side : Player) :
    (evaluate evaluator position side).Keeps holds :=
  fun effort fit => keeps.score position side effort.memory fit

end SearchM

open SearchM

variable {game : Game Position Player Action} {evaluator : Evaluator Memory Position Player}
  {deadline : Deadline} {position : Position} {seeker mover : Player} {aim : Aim} {plies : Nat}

theorem keeps_scoreLeaf (keeps : evaluator.Keeps holds) :
    (scoreLeaf evaluator seeker position : SearchM Memory (Tracker Action)).Keeps holds :=
  (keeps_evaluate keeps position seeker).bind fun _ => keeps_pure _

/-- The deadline is asked, then a child is searched, then the rest. -/
theorem SearchM.Keeps.child {child : Position → SearchM Memory (Tracker Action)}
    {rest : Tracker Action → SearchM Memory (Tracker Action)} (best : Tracker Action)
    (played : Except Fault Position) (searched : ∀ next, (child next).Keeps holds)
    (continued : ∀ result, (rest result).Keeps holds) :
    (do
      if ← SearchM.expired deadline then return best.truncate
      let result ← child (← played)
      if result.truncated then return best.truncate
      rest result : SearchM Memory (Tracker Action)).Keeps holds := by
  refine SearchM.Keeps.bind (keeps_expired deadline) ?_
  intro passed
  refine keeps_ite (keeps_pure _) ?_
  refine SearchM.Keeps.bind (keeps_lift played) ?_
  intro next
  refine SearchM.Keeps.bind (searched next) ?_
  intro result
  exact keeps_ite (keeps_pure _) (continued result)

/-- A position without an action is scored as it stands. -/
theorem SearchM.Keeps.settle {search : SearchM Memory (Tracker Action)}
    (searched : search.Keeps holds) (keeps : evaluator.Keeps holds) :
    (do
      let best ← search
      if best.truncated || best.hasAction then return best
      scoreLeaf evaluator seeker position : SearchM Memory (Tracker Action)).Keeps holds := by
  refine SearchM.Keeps.bind searched ?_
  intro best
  exact keeps_ite (keeps_pure _) (keeps_scoreLeaf keeps)

theorem keeps_searchMoves {child : Position → SearchM Memory (Tracker Action)}
    (searched : ∀ next, (child next).Keeps holds) (moves : Moves Action) (best : Tracker Action) :
    (searchMoves game deadline child position mover aim moves best).Keeps holds := by
  induction moves generalizing best with
  | done => exact keeps_pure best
  | next action rest ih => exact SearchM.Keeps.child best _ searched fun _ => ih () _

theorem keeps_searchMovesWithin {child : Window → Position → SearchM Memory (Tracker Action)}
    (searched : ∀ window next, (child window next).Keeps holds) (moves : Moves Action)
    (window : Window) (best : Tracker Action) :
    (searchMovesWithin game deadline child position mover aim moves window best).Keeps holds := by
  induction moves generalizing window best with
  | done => exact keeps_pure best
  | next action rest ih =>
      apply SearchM.Keeps.child best _ (searched window)
      intro result
      exact keeps_ite (keeps_pure _) (ih () _ _)

theorem keeps_scoreMoves (keeps : evaluator.Keeps holds) (moves : Moves Action)
    (best : Tracker Action) : (scoreMoves game evaluator position mover moves best).Keeps holds := by
  induction moves generalizing best with
  | done => exact keeps_pure best
  | next action rest ih =>
      refine SearchM.Keeps.bind (keeps_lift _) ?_
      intro next
      refine SearchM.Keeps.bind (keeps_evaluate keeps next mover) ?_
      intro score
      exact ih () _

theorem keeps_pickGreedy (keeps : evaluator.Keeps holds) :
    (pickGreedy game evaluator position mover).Keeps holds :=
  (keeps_scoreMoves keeps _ _).bind fun best => keeps_lift best.action?

variable [DecidableEq Player]

theorem keeps_minimax (keeps : evaluator.Keeps holds) :
    (minimax game evaluator deadline seeker plies position).Keeps holds := by
  induction plies generalizing position with
  | zero => exact keeps_scoreLeaf keeps
  | succ plies ih =>
      rcases status : game.status position with mover | winner
      · simp only [minimax, status]
        exact (keeps_searchMoves (fun _ => ih) _ _).settle keeps
      · simp only [minimax, status]
        exact keeps_scoreLeaf keeps

theorem keeps_alphaBeta (keeps : evaluator.Keeps holds) {window : Window} :
    (alphaBeta game evaluator deadline seeker plies window position).Keeps holds := by
  induction plies generalizing position window with
  | zero => exact keeps_scoreLeaf keeps
  | succ plies ih =>
      rcases status : game.status position with mover | winner
      · simp only [alphaBeta, status]
        exact (keeps_searchMovesWithin (fun _ _ => ih) _ _ _).settle keeps
      · simp only [alphaBeta, status]
        exact keeps_scoreLeaf keeps

theorem TreeMethod.keeps_run (method : TreeMethod) (keeps : evaluator.Keeps holds) {depth : Int} :
    (method.run game evaluator deadline depth seeker position).Keeps holds := by
  have keeps_search {evaluator : Evaluator Memory Position Player} (keeps : evaluator.Keeps holds)
      (plies : Nat) :
      (method.search game evaluator deadline seeker plies position).Keeps holds := by
    cases method with
    | minimax => exact keeps_minimax keeps
    | alphaBeta => exact keeps_alphaBeta keeps
  unfold TreeMethod.run
  split
  · exact keeps_search (keeps.onlyAtEnds game) _
  · exact keeps_search keeps _

/-- What a tree search does once its tracker is there leaves the memory alone. -/
theorem TreeMethod.keeps_report (method : TreeMethod) {depth : Int} (best : Tracker Action) : (do
    if best.truncated then
      SearchM.note .debug .treeSearch
        ((← method.title depth) ++ ": deadline exceeded, using best action so far")
    best.action? : SearchM Memory Action).Keeps holds := by
  refine keeps_ite (SearchM.Keeps.bind (keeps_lift _) fun _ => ?_) (keeps_lift _)
  exact SearchM.Keeps.bind (keeps_note _ _ _) fun _ => keeps_lift _

theorem TreeMethod.keeps_pick (method : TreeMethod) (keeps : evaluator.Keeps holds) {depth : Int} :
    (method.pick game evaluator deadline depth seeker position).Keeps holds := by
  refine SearchM.Keeps.bind (method.keeps_run keeps) ?_
  intro best
  exact method.keeps_report _

variable [DecidableEq Action] [Worded Action] {scorer : ChildScorer}

theorem keeps_iterate (keeps : evaluator.Keeps holds) {remaining done : Nat}
    {tree : SearchTree Position Player Action} :
    (iterate game evaluator deadline scorer remaining done tree).Keeps holds := by
  induction remaining generalizing done tree with
  | zero => exact keeps_pure _
  | succ remaining ih =>
      rw [iterate]
      refine SearchM.Keeps.bind (keeps_expired deadline) ?_
      intro passed
      refine keeps_ite (keeps_pure _) ?_
      refine SearchM.Keeps.bind (keeps_lift _) ?_
      rintro ⟨next, leaf, reached⟩
      refine SearchM.Keeps.bind (keeps_evaluate keeps reached next.player) ?_
      intro reward
      exact SearchM.Keeps.bind (keeps_lift _) fun _ => ih

theorem keeps_monteCarlo (keeps : evaluator.Keeps holds) {maxIterations : Option Int} :
    (monteCarlo game evaluator deadline scorer maxIterations seeker position).Keeps holds := by
  refine SearchM.Keeps.bind (keeps_startSearch keeps) ?_
  intro _
  cases iterationBound deadline maxIterations with
  | none => exact keeps_throw _
  | some bound =>
      refine SearchM.Keeps.bind (keeps_iterate keeps) ?_
      rintro ⟨tree, iterations⟩
      refine SearchM.Keeps.bind (keeps_note _ _ _) ?_
      intro _
      exact keeps_pure tree

theorem keeps_pickMonteCarlo (keeps : evaluator.Keeps holds) {maxIterations : Option Int} :
    (pickMonteCarlo game evaluator deadline scorer maxIterations seeker position).Keeps holds := by
  refine SearchM.Keeps.bind (keeps_monteCarlo keeps) ?_
  intro tree
  split
  · exact SearchM.Keeps.bind (keeps_note _ _ _) fun _ => keeps_pure _
  · exact keeps_pure _

theorem Strategy.keeps_pick (strategy : Strategy) (keeps : evaluator.Keeps holds) :
    (strategy.pick game evaluator deadline seeker position).Keeps holds := by
  cases strategy with
  | singleLevel => exact SearchM.Keeps.map _ (keeps_pickGreedy keeps)
  | tree method depth => exact SearchM.Keeps.map _ (method.keeps_pick keeps)
  | monteCarlo scorer maxIterations => exact keeps_pickMonteCarlo keeps

end GameSearch
