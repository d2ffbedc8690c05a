import GameSearch.Proofs.Search.Alongside
import GameSearch.Proofs.Search.Window
import GameSearch.Search.DepthLimited
import GameSearch.Search.SingleLevel

/-!
# Searches with corresponding scores

A search does nothing with a score but compare it. So if the scores of two searches of one game
correspond in such a way that every comparison comes out the same, the searches run side by side:
they go down the same lines, cut off the same moves, stop at the same moment and store the same
actions. The other search may work for another player, whose aim is then turned round.

`Correspondence` holds what this takes of the scores.
-/

namespace GameSearch

variable {Memory OtherMemory Position Player Action : Type} {turned : Aim → Aim}
  {related : Number → Number → Prop}

/-- Whether related scores compare alike, where the other search has the aims that `turned`
gives. -/
structure Correspondence (turned : Aim → Aim) (related : Number → Number → Prop) : Prop where
  opposite : ∀ aim, turned aim.opposite = (turned aim).opposite
  baseline : ∀ aim, related aim.baseline (turned aim).baseline
  prefers : ∀ aim score rival counterpart otherRival, related score counterpart →
    related rival otherRival →
    (turned aim).prefers counterpart otherRival = aim.prefers score rival
  same : ∀ score rival counterpart otherRival, related score counterpart →
    related rival otherRival → counterpart.same otherRival = score.same rival

/-- Whether two trackers differ in their scores alone, and these are related. -/
structure Tracker.Corresponds (related : Number → Number → Prop)
    (tracker other : Tracker Action) : Prop where
  score : related tracker.score other.score
  action_eq : other.action = tracker.action
  truncated_eq : other.truncated = tracker.truncated

/-- Whether the ends of two windows are related, end by end as a mover sees them. -/
def Window.Corresponds (turned : Aim → Aim) (related : Number → Number → Prop)
    (window other : Window) : Prop :=
  ∀ aim, related (window.near aim) (other.near (turned aim))

namespace Tracker.Corresponds

variable {tracker other : Tracker Action}

theorem start {score counterpart : Number} (holds : related score counterpart) :
    (Tracker.start score : Tracker Action).Corresponds related (.start counterpart) :=
  ⟨holds, rfl, rfl⟩

theorem truncate (corresponds : tracker.Corresponds related other) :
    tracker.truncate.Corresponds related other.truncate :=
  ⟨corresponds.score, corresponds.action_eq, rfl⟩

theorem hasAction_eq (corresponds : tracker.Corresponds related other) :
    other.hasAction = tracker.hasAction := by
  rw [hasAction, hasAction, corresponds.action_eq]

theorem insert (corresponds : tracker.Corresponds related other)
    (correspondence : Correspondence turned related) (aim : Aim) (action : Action)
    {score counterpart : Number} (holds : related score counterpart) :
    (tracker.insert aim action score).Corresponds related
      (other.insert (turned aim) action counterpart) := by
  rw [Tracker.insert, Tracker.insert,
    correspondence.prefers aim _ _ _ _ holds corresponds.score]
  split
  · exact ⟨holds, rfl, corresponds.truncated_eq⟩
  · exact corresponds

/-- Trackers without an action fail alike as long as they hold one and the same score. -/
theorem action?_insert_eq (corresponds : tracker.Corresponds related other)
    (correspondence : Correspondence turned related) (alike : other.action? = tracker.action?)
    (aim : Aim) (action : Action) {score counterpart : Number} (holds : related score counterpart) :
    (other.insert (turned aim) action counterpart).action? =
      (tracker.insert aim action score).action? := by
  rw [Tracker.insert, Tracker.insert,
    correspondence.prefers aim _ _ _ _ holds corresponds.score]
  split
  · rfl
  · exact alike

end Tracker.Corresponds

namespace Window.Corresponds

variable {window other : Window}

theorem full (correspondence : Correspondence turned related) :
    Window.full.Corresponds turned related .full := by
  intro aim
  rw [near_full, near_full]
  exact correspondence.baseline aim

theorem far (corresponds : window.Corresponds turned related other)
    (correspondence : Correspondence turned related) (aim : Aim) :
    related (window.far aim) (other.far (turned aim)) := by
  rw [← near_opposite, ← near_opposite, ← correspondence.opposite]
  exact corresponds aim.opposite

theorem narrow (corresponds : window.Corresponds turned related other)
    (correspondence : Correspondence turned related) (aim : Aim) {score counterpart : Number}
    (holds : related score counterpart) :
    (window.narrow score aim).Corresponds turned related
      (other.narrow counterpart (turned aim)) := by
  intro viewer
  rcases Aim.eq_or_eq_opposite aim viewer with rfl | rfl
  · rw [near_narrow, near_narrow, correspondence.prefers _ _ _ _ _ holds (corresponds viewer)]
    split
    · exact holds
    · exact corresponds viewer
  · rw [correspondence.opposite, near_opposite, near_opposite, far_narrow, far_narrow]
    exact corresponds.far correspondence aim

theorem isClosed_eq (corresponds : window.Corresponds turned related other)
    (correspondence : Correspondence turned related) : other.isClosed = window.isClosed := by
  have near := corresponds .greatest
  have far := corresponds.far correspondence .greatest
  rw [other.isClosed_eq (turned .greatest), window.isClosed_eq .greatest,
    correspondence.prefers _ _ _ _ _ near far, correspondence.same _ _ _ _ near far]

end Window.Corresponds

section

variable {game : Game Position Player Action} {evaluator : Evaluator Memory Position Player}
  {otherEvaluator : Evaluator OtherMemory Position Player} {deadline : Deadline}
  {linked : Memory → OtherMemory → Prop} {seeker otherSeeker mover : Player}
  {position : Position} {action : Action} {plies : Nat} {aim : Aim}

/-- Whether two evaluators with linked memories give a position related scores, one for each of two
players, and leave their memories linked. -/
def Evaluator.ScoresAlike (evaluator : Evaluator Memory Position Player)
    (other : Evaluator OtherMemory Position Player) (linked : Memory → OtherMemory → Prop)
    (related : Number → Number → Prop) (side otherSide : Player) : Prop :=
  ∀ position memory otherMemory, linked memory otherMemory →
    ∃ score counterpart after otherAfter,
      evaluator.score position side memory = (.ok score, after) ∧
      other.score position otherSide otherMemory = (.ok counterpart, otherAfter) ∧
      linked after otherAfter ∧ related score counterpart

namespace SearchM

/-- The deadline is asked, then a child is searched, then the rest. -/
theorem Alongside.child {child : Position → SearchM Memory (Tracker Action)}
    {otherChild : Position → SearchM OtherMemory (Tracker Action)}
    {rest : Tracker Action → SearchM Memory (Tracker Action)}
    {otherRest : Tracker Action → SearchM OtherMemory (Tracker Action)}
    {best otherBest : Tracker Action} (corresponds : best.Corresponds related otherBest)
    (legal : action ∈ game.legal position mover)
    (searched : ∀ next, (child next).Alongside (otherChild next) linked
      (Tracker.Corresponds related))
    (continued : ∀ result counterpart, result.Corresponds related counterpart →
      (rest result).Alongside (otherRest counterpart) linked (Tracker.Corresponds related)) :
    (do
      if ← SearchM.expired deadline then return best.truncate
      let result ← child (← game.play position mover action)
      if result.truncated then return best.truncate
      rest result : SearchM Memory (Tracker Action)).Alongside (do
      if ← SearchM.expired deadline then return otherBest.truncate
      let result ← otherChild (← game.play position mover action)
      if result.truncated then return otherBest.truncate
      otherRest result) linked (Tracker.Corresponds related) := by
  rcases (game.play_isOk position mover action).mpr legal with ⟨next, played⟩
  apply (alongside_expired deadline).bind
  rintro passed _ rfl
  apply alongside_ite
  · exact alongside_pure corresponds.truncate
  · apply (alongside_lift played played).bind
    rintro _ _ ⟨rfl, rfl⟩
    apply (searched _).bind
    intro result counterpart holds
    rw [holds.truncated_eq]
    apply alongside_ite
    · exact alongside_pure corresponds.truncate
    · exact continued result counterpart holds

end SearchM

theorem scoreLeaf_alongside
    (alike : evaluator.ScoresAlike otherEvaluator linked related seeker otherSeeker) :
    (scoreLeaf evaluator seeker position : SearchM Memory (Tracker Action)).Alongside
      (scoreLeaf otherEvaluator otherSeeker position) linked (Tracker.Corresponds related) := by
  apply (SearchM.alongside_evaluate (alike position)).bind
  intro score counterpart holds
  exact SearchM.alongside_pure (.start holds)

/-- A position without an action is scored as it stands. -/
theorem SearchM.Alongside.settle {search : SearchM Memory (Tracker Action)}
    {other : SearchM OtherMemory (Tracker Action)}
    (alongside : search.Alongside other linked (Tracker.Corresponds related))
    (alike : evaluator.ScoresAlike otherEvaluator linked related seeker otherSeeker) :
    (do
      let best ← search
      if best.truncated || best.hasAction then return best
      scoreLeaf evaluator seeker position : SearchM Memory (Tracker Action)).Alongside (do
      let best ← other
      if best.truncated || best.hasAction then return best
      scoreLeaf otherEvaluator otherSeeker position) linked (Tracker.Corresponds related) := by
  apply alongside.bind
  intro best otherBest holds
  rw [holds.truncated_eq, holds.hasAction_eq]
  apply alongside_ite
  · exact alongside_pure holds
  · exact scoreLeaf_alongside alike

theorem searchMoves_alongside (correspondence : Correspondence turned related)
    {child : Position → SearchM Memory (Tracker Action)}
    {otherChild : Position → SearchM OtherMemory (Tracker Action)}
    (searched : ∀ next, (child next).Alongside (otherChild next) linked
      (Tracker.Corresponds related))
    (moves : Moves Action) (legal : ∀ action ∈ moves.toList, action ∈ game.legal position mover)
    {best otherBest : Tracker Action} (corresponds : best.Corresponds related otherBest) :
    (searchMoves game deadline child position mover aim moves best).Alongside
      (searchMoves game deadline otherChild position mover (turned aim) moves otherBest) linked
      (Tracker.Corresponds related) := by
  induction moves generalizing best otherBest with
  | done => exact SearchM.alongside_pure corresponds
  | next action rest ih =>
      simp only [Moves.toList_next, List.forall_mem_cons] at legal
      apply SearchM.Alongside.child corresponds legal.1 searched
      intro result counterpart holds
      apply ih () legal.2
      exact corresponds.insert correspondence aim action holds.score

theorem searchMovesWithin_alongside (correspondence : Correspondence turned related)
    {child : Window → Position → SearchM Memory (Tracker Action)}
    {otherChild : Window → Position → SearchM OtherMemory (Tracker Action)}
    (searched : ∀ window other next, window.Corresponds turned related other →
      (child window next).Alongside (otherChild other next) linked (Tracker.Corresponds related))
    (moves : Moves Action) (legal : ∀ action ∈ moves.toList, action ∈ game.legal position mover)
    {window other : Window} (ends : window.Corresponds turned related other)
    {best otherBest : Tracker Action} (corresponds : best.Corresponds related otherBest) :
    (searchMovesWithin game deadline child position mover aim moves window best).Alongside
      (searchMovesWithin game deadline otherChild position mover (turned aim) moves other
        otherBest) linked (Tracker.Corresponds related) := by
  induction moves generalizing window other best otherBest with
  | done => exact SearchM.alongside_pure corresponds
  | next action rest ih =>
      simp only [Moves.toList_next, List.forall_mem_cons] at legal
      apply SearchM.Alongside.child corresponds legal.1 (fun next => searched window other next ends)
      intro result counterpart holds
      have inserted := corresponds.insert correspondence aim action holds.score
      have narrowed := ends.narrow correspondence aim holds.score
      -- Both windows close at the same moment.
      dsimp only
      rw [narrowed.isClosed_eq correspondence]
      apply SearchM.alongside_ite
      · exact SearchM.alongside_pure inserted
      · exact ih () legal.2 narrowed inserted

theorem scoreMoves_alongside (correspondence : Correspondence id related)
    (alike : evaluator.ScoresAlike otherEvaluator linked related mover mover)
    (moves : Moves Action) (legal : ∀ action ∈ moves.toList, action ∈ game.legal position mover)
    {best otherBest : Tracker Action} (corresponds : best.Corresponds related otherBest)
    (action?_eq : otherBest.action? = best.action?) :
    (scoreMoves game evaluator position mover moves best).Alongside
      (scoreMoves game otherEvaluator position mover moves otherBest) linked
      fun result counterpart => counterpart.action? = result.action? := by
  induction moves generalizing best otherBest with
  | done => exact SearchM.alongside_pure action?_eq
  | next action rest ih =>
      simp only [Moves.toList_next, List.forall_mem_cons] at legal
      rcases (game.play_isOk position mover action).mpr legal.1 with ⟨next, played⟩
      apply (SearchM.alongside_lift played played).bind
      rintro _ _ ⟨rfl, rfl⟩
      apply (SearchM.alongside_evaluate (alike _)).bind
      intro score counterpart holds
      apply ih () legal.2
      · exact corresponds.insert correspondence .greatest action holds
      · exact corresponds.action?_insert_eq correspondence action?_eq .greatest action holds

/-- Greedy searches with corresponding scores choose the same action, or fail alike. -/
theorem exists_pickGreedy_eq (correspondence : Correspondence id related)
    (alike : evaluator.ScoresAlike otherEvaluator linked related mover mover)
    {effort : Effort Memory} {otherEffort : Effort OtherMemory}
    (fit : effort.Linked linked otherEffort) :
    ∃ choice after otherAfter,
      (pickGreedy game evaluator position mover).run.run effort = (choice, after) ∧
      (pickGreedy game otherEvaluator position mover).run.run otherEffort =
        (choice, otherAfter) ∧ after.Linked linked otherAfter := by
  have baseline : related .below .below := correspondence.baseline .greatest
  rcases scoreMoves_alongside correspondence alike (game.legal position mover) (fun _ => id)
    (.start baseline) rfl effort otherEffort fit with
    ⟨best, otherBest, after, otherAfter, ran, otherRan, kept, action?_eq⟩
  unfold SearchM.Yields at ran otherRan
  refine ⟨best.action?, after, otherAfter, ?_, ?_, kept⟩
  · rw [pickGreedy, SearchM.run_bind, ran]
    rfl
  · rw [pickGreedy, SearchM.run_bind, otherRan, ← action?_eq]
    rfl

variable [DecidableEq Player]

theorem minimax_alongside (correspondence : Correspondence turned related)
    (alike : evaluator.ScoresAlike otherEvaluator linked related seeker otherSeeker)
    (aims : ∀ position mover, game.status position = .turn mover →
      Aim.ofMover otherSeeker mover = turned (Aim.ofMover seeker mover)) :
    (minimax game evaluator deadline seeker plies position).Alongside
      (minimax game otherEvaluator deadline otherSeeker plies position) linked
      (Tracker.Corresponds related) := by
  induction plies generalizing position with
  | zero => exact scoreLeaf_alongside alike
  | succ plies ih =>
      rcases status : game.status position with mover | winner
      · simp only [minimax, status, aims position mover status]
        apply SearchM.Alongside.settle _ alike
        apply searchMoves_alongside correspondence (fun _ => ih) _ (fun _ => id)
        exact .start (correspondence.baseline _)
      · simp only [minimax, status]
        exact scoreLeaf_alongside alike

theorem alphaBeta_alongside (correspondence : Correspondence turned related)
    (alike : evaluator.ScoresAlike otherEvaluator linked related seeker otherSeeker)
    (aims : ∀ position mover, game.status position = .turn mover →
      Aim.ofMover otherSeeker mover = turned (Aim.ofMover seeker mover))
    {window other : Window} (ends : window.Corresponds turned related other) :
    (alphaBeta game evaluator deadline seeker plies window position).Alongside
      (alphaBeta game otherEvaluator deadline otherSeeker plies other position) linked
      (Tracker.Corresponds related) := by
  induction plies generalizing position window other with
  | zero => exact scoreLeaf_alongside alike
  | succ plies ih =>
      rcases status : game.status position with mover | winner
      · simp only [alphaBeta, status, aims position mover status]
        apply SearchM.Alongside.settle _ alike
        apply searchMovesWithin_alongside correspondence _ _ (fun _ => id) ends
        · exact .start (correspondence.baseline _)
        · exact fun _ _ _ ends => ih ends
      · simp only [alphaBeta, status]
        exact scoreLeaf_alongside alike

/-- Searches with corresponding scores run side by side. -/
theorem TreeMethod.search_alongside (method : TreeMethod)
    (correspondence : Correspondence turned related)
    (alike : evaluator.ScoresAlike otherEvaluator linked related seeker otherSeeker)
    (aims : ∀ position mover, game.status position = .turn mover →
      Aim.ofMover otherSeeker mover = turned (Aim.ofMover seeker mover)) :
    (method.search game evaluator deadline seeker plies position).Alongside
      (method.search game otherEvaluator deadline otherSeeker plies position) linked
      (Tracker.Corresponds related) := by
  cases method with
  | minimax => exact minimax_alongside correspondence alike aims
  | alphaBeta => exact alphaBeta_alongside correspondence alike aims (.full correspondence)

end

end GameSearch
