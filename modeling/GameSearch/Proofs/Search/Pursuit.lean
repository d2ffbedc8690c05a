import GameSearch.Proofs.Search.Pruned
import GameSearch.Proofs.Search.Pruning

/-!
# Searches and their courses

Under any deadline a tree search follows its course up to the first question that is answered with
yes. `Pursues` is this law, for evaluators that compute integers and record what they score.

Minimax goes through the agenda of its position to the exact result, and alpha-beta search goes on
the journey that `Game.prune` computes.
-/

namespace GameSearch

open Course

variable {Memory Position Player Action : Type}

/-- How a run of a search goes by a course and by the result at its end. -/
structure Pursued (deadline : Deadline) (course : Course Position) (final : Tracker Action)
    (effort : Effort (Memory × Trail Position)) (result : Tracker Action)
    (after : Effort (Memory × Trail Position)) : Prop where
  checks_eq : after.checks = effort.checks + asks (deadline.heeded effort.checks course)
  scored_eq : after.memory.2.scored =
    (scored (deadline.heeded effort.checks course)).reverse ++ effort.memory.2.scored
  truncated_iff : result.truncated = true ↔ deadline.CutsShort effort.checks course
  result_eq : result.truncated = false → result = final

/-- Whether a search that starts with a valid memory follows a course to a result, as far as its
deadline lets it, and leaves a valid memory behind. -/
def Pursues (search : Deadline → SearchM (Memory × Trail Position) (Tracker Action))
    (valid : Memory → Prop) (course : Course Position) (final : Tracker Action) : Prop :=
  ∀ deadline effort, valid effort.memory.1 → (search deadline).Returns effort fun result after =>
    valid after.memory.1 ∧ Pursued deadline course final effort result after

variable {game : Game Position Player Action} {evaluator : Evaluator Memory Position Player}
  {deadline : Deadline} {valid : Memory → Prop} {seeker mover : Player} {value : Position → Int}
  {position next : Position} {action : Action} {plies : Nat} {window : Window} {aim : Aim}
  {course first second : Course Position} {best result final : Tracker Action}
  {effort between after : Effort (Memory × Trail Position)} {memory : Memory}

theorem Pursued.whole (pursued : Pursued deadline course final effort result after)
    (complete : result.truncated = false) :
    after.checks = effort.checks + asks course ∧
      after.memory.2.scored = (scored course).reverse ++ effort.memory.2.scored := by
  have whole : ¬deadline.CutsShort effort.checks course := by
    rw [← pursued.truncated_iff, complete]
    exact Bool.false_ne_true
  rw [← Deadline.heeded_eq whole, ← pursued.checks_eq, ← pursued.scored_eq]
  exact ⟨rfl, rfl⟩

theorem Pursued.done_eq
    (pursued : Pursued deadline course final (.start (memory, ⟨[], 0⟩)) result after) :
    after.checks = asks (deadline.heeded 0 course) ∧
      after.memory.2.scored.reverse = scored (deadline.heeded 0 course) := by
  rw [pursued.checks_eq, pursued.scored_eq, Effort.start, Nat.zero_add, List.append_nil,
    List.reverse_reverse]
  exact ⟨rfl, rfl⟩

theorem Pursued.whole_of_never
    (pursued : Pursued deadline course final (.start (memory, ⟨[], 0⟩)) result after)
    (never : deadline.NeverPasses) :
    result.truncated = false ∧ after.checks = asks course ∧
      after.memory.2.scored.reverse = scored course := by
  have whole : ¬deadline.CutsShort 0 course := never.not_cutsShort
  rw [← Deadline.heeded_eq whole]
  refine ⟨?_, pursued.done_eq⟩
  rw [← Bool.not_eq_true, pursued.truncated_iff]
  exact whole

theorem Pursues.completes
    {search : Deadline → SearchM (Memory × Trail Position) (Tracker Action)}
    (pursues : Pursues search valid course final) :
    (search deadline).Completes deadline (fun memory => valid memory.1)
      fun result => result = final := by
  intro effort fit
  refine (pursues deadline effort fit).mono ?_
  rintro result after ⟨kept, pursued⟩
  refine ⟨kept, ?_, pursued.result_eq⟩
  intro never
  rw [← Bool.not_eq_true, pursued.truncated_iff]
  exact never.not_cutsShort

theorem pursues_pure (complete : final.truncated = false) :
    Pursues (fun _ => (pure final : SearchM (Memory × Trail Position) _)) valid [] final := by
  intro deadline effort fit
  refine SearchM.returns_pure.mpr ⟨fit, ?_⟩
  constructor
  · rfl
  · rfl
  · simp [complete]
  · exact fun _ => rfl

theorem Evaluator.score_recorded {memory : Memory × Trail Position} {remembered : Memory}
    {result : Except Fault Number}
    (scored : evaluator.score position seeker memory.1 = (result, remembered)) :
    evaluator.recorded.score position seeker memory =
      (result, remembered, { memory.2 with scored := position :: memory.2.scored }) := by
  simp only [recorded, scored]

theorem Evaluator.Computes.recorded (computes : evaluator.Computes valid seeker value position) :
    evaluator.recorded.Computes (fun memory => valid memory.1) seeker value position := by
  intro memory fit
  rcases computes memory.1 fit with ⟨remembered, scored, kept⟩
  exact ⟨_, score_recorded scored, kept⟩

theorem scoreLeaf_pursues (computes : evaluator.Computes valid seeker value position) :
    Pursues (fun _ => (scoreLeaf evaluator.recorded seeker position : SearchM _ (Tracker Action)))
      valid [.score position] (.start (.int (value position))) := by
  intro deadline effort fit
  rcases computes effort.memory.1 fit with ⟨memory, scored, kept⟩
  simp only [scoreLeaf, SearchM.returns_bind, SearchM.returns_evaluate, SearchM.returns_pure]
  refine ⟨_, _, Evaluator.score_recorded scored, kept, ?_⟩
  constructor
  · simp [Deadline.heeded]
  · simp [Deadline.heeded]
  · simp [Tracker.start]
  · exact fun _ => rfl

namespace Pursued

/-- A search that stops at a question. -/
theorem ask (passed : deadline.passed (effort.checks + 1) = true) (best : Tracker Action) :
    Pursued deadline (.ask :: course) final effort best.truncate
      { effort with checks := effort.checks + 1 } := by
  constructor
  · simp [Deadline.heeded, passed]
  · simp [Deadline.heeded, passed]
  · simp [Tracker.truncate, passed]
  · exact fun complete => by cases complete

/-- A search that stops in a child. -/
theorem truncate (unpassed : ¬deadline.passed (effort.checks + 1) = true)
    (pursued : Pursued deadline first result { effort with checks := effort.checks + 1 } best after)
    (truncated : best.truncated = true) (other : Tracker Action) :
    Pursued deadline (.ask :: (first ++ second)) final effort other.truncate after := by
  have cuts : deadline.CutsShort (effort.checks + 1) first := pursued.truncated_iff.mp truncated
  have checks_eq : after.checks = effort.checks + 1 +
      asks (deadline.heeded (effort.checks + 1) first) := pursued.checks_eq
  have scored_eq := pursued.scored_eq
  constructor
  · simp only [Deadline.heeded, if_neg unpassed, Deadline.heeded_append_of_cutsShort cuts, asks_ask]
    omega
  · simp only [Deadline.heeded, if_neg unpassed, Deadline.heeded_append_of_cutsShort cuts,
      scored_ask, scored_eq]
  · simp [Tracker.truncate, cuts]
  · exact fun complete => by cases complete

/-- A search that goes on after a child. -/
theorem append (unpassed : ¬deadline.passed (effort.checks + 1) = true)
    (pursued : Pursued deadline first best { effort with checks := effort.checks + 1 } best between)
    (complete : best.truncated = false)
    (later : Pursued deadline second final between result after) :
    Pursued deadline (.ask :: (first ++ second)) final effort result after := by
  have whole : ¬deadline.CutsShort (effort.checks + 1) first := by
    rw [← pursued.truncated_iff, complete]
    exact Bool.false_ne_true
  have checks_eq : between.checks = effort.checks + 1 + asks first := (pursued.whole complete).1
  have scored_eq := (pursued.whole complete).2
  have later_checks := later.checks_eq
  have later_scored := later.scored_eq
  constructor
  · simp only [Deadline.heeded, if_neg unpassed, Deadline.heeded_append whole, asks_ask,
      asks_append, ← checks_eq]
    omega
  · simp only [Deadline.heeded, if_neg unpassed, Deadline.heeded_append whole, scored_ask,
      scored_append, ← checks_eq, later_scored, scored_eq, List.reverse_append, List.append_assoc]
  · simp [later.truncated_iff, unpassed, whole, checks_eq]
  · exact later.result_eq

end Pursued

/-- The deadline is asked, then a child is searched, then the rest. -/
theorem Pursues.child
    {child : Deadline → Position → SearchM (Memory × Trail Position) (Tracker Action)}
    {rest : Deadline → Tracker Action → SearchM (Memory × Trail Position) (Tracker Action)}
    (played : game.play position mover action = .ok next)
    (searched : Pursues (fun deadline => child deadline next) valid first result)
    (continued : Pursues (fun deadline => rest deadline result) valid second final)
    (best : Tracker Action) :
    Pursues (fun deadline => do
      if ← SearchM.expired deadline then return best.truncate
      let result ← child deadline (← game.play position mover action)
      if result.truncated then return best.truncate
      rest deadline result) valid (.ask :: (first ++ second)) final := by
  intro deadline effort fit
  simp only [SearchM.returns_bind, SearchM.returns_expired]
  split
  · rename_i passed
    exact SearchM.returns_pure.mpr ⟨fit, .ask passed best⟩
  · rename_i unpassed
    simp only [SearchM.returns_bind, SearchM.returns_lift]
    have child_returns := searched deadline { effort with checks := effort.checks + 1 } fit
    refine ⟨next, played, child_returns.mono ?_⟩
    rintro found between ⟨kept, pursued⟩
    split
    · rename_i truncated
      exact SearchM.returns_pure.mpr ⟨kept, pursued.truncate unpassed truncated best⟩
    · rename_i complete
      rw [Bool.not_eq_true] at complete
      rcases pursued.result_eq complete with rfl
      refine (continued deadline between kept).mono ?_
      rintro last after ⟨fit, later⟩
      exact ⟨fit, pursued.append unpassed complete later⟩

theorem Pursued.answered (pursued : Pursued deadline course final effort result after)
    (found : final.hasAction = true) : (result.truncated || result.hasAction) = true := by
  cases complete : result.truncated with
  | true => rfl
  | false => rw [pursued.result_eq complete, Bool.false_or, found]

/-- A best tracker that has an action is the answer. -/
theorem SearchM.Returns.settle {search : SearchM Memory (Tracker Action)} {effort : Effort Memory}
    {condition : Tracker Action → Effort Memory → Prop}
    (returns : search.Returns effort fun best after =>
      (best.truncated || best.hasAction) = true ∧ condition best after)
    (evaluator : Evaluator Memory Position Player) :
    (do
      let best ← search
      if best.truncated || best.hasAction then return best
      scoreLeaf evaluator seeker position : SearchM Memory (Tracker Action)).Returns effort
        condition := by
  rw [returns_bind]
  refine returns.mono ?_
  rintro best after ⟨answered, holds⟩
  rw [if_pos answered]
  exact returns_pure.mpr holds

theorem Pursues.settle
    {search : Deadline → SearchM (Memory × Trail Position) (Tracker Action)}
    (pursues : Pursues search valid course best) (found : best.hasAction = true)
    (evaluator : Evaluator (Memory × Trail Position) Position Player) :
    Pursues (fun deadline => do
      let best ← search deadline
      if best.truncated || best.hasAction then return best
      scoreLeaf evaluator seeker position) valid course best := by
  intro deadline effort fit
  apply SearchM.Returns.settle
  refine (pursues deadline effort fit).mono ?_
  rintro result after ⟨kept, pursued⟩
  exact ⟨pursued.answered found, kept, pursued⟩

theorem searchMoves_pursues
    {child : Deadline → Position → SearchM (Memory × Trail Position) (Tracker Action)}
    (agenda : Position → Course Position) (exact : Position → Tracker Action)
    (searched : ∀ next,
      Pursues (fun deadline => child deadline next) valid (agenda next) (exact next))
    (moves : Moves Action)
    (playable : ∀ action ∈ moves.toList, ∃ next, game.play position mover action = .ok next)
    (best : Tracker Action) (complete : best.truncated = false) :
    Pursues
      (fun deadline => searchMoves game deadline (child deadline) position mover aim moves best)
      valid
      ((game.outcomes position mover moves.toList).flatMap fun entry => .ask :: agenda entry.2)
      (best.insertAll aim ((game.outcomes position mover moves.toList).map
        fun entry => (entry.1, (exact entry.2).score))) := by
  induction moves generalizing best with
  | done => exact pursues_pure complete
  | next action rest ih =>
      simp only [Moves.toList_next, List.forall_mem_cons] at playable
      rcases playable.1 with ⟨next, played⟩
      rw [Moves.toList_next, Game.outcomes_cons played, List.map_cons, Tracker.insertAll_cons,
        List.flatMap_cons, List.cons_append]
      exact Pursues.child played (searched next)
        (ih () playable.2 (best.insert aim action (exact next).score) (by simpa)) best

theorem searchMovesWithin_pursues
    {child : Deadline → Window → Position → SearchM (Memory × Trail Position) (Tracker Action)}
    (journey : Window → Position → Journey Position Action)
    (searched : ∀ window next, Pursues (fun deadline => child deadline window next) valid
      (journey window next).course (journey window next).result)
    (moves : Moves Action)
    (playable : ∀ action ∈ moves.toList, ∃ next, game.play position mover action = .ok next)
    (window : Window) (best : Tracker Action) (complete : best.truncated = false) :
    let reached := game.outcomes position mover moves.toList
    Pursues
      (fun deadline =>
        searchMovesWithin game deadline (child deadline) position mover aim moves window best)
      valid (Journey.prune journey aim reached window best).course
      (Journey.prune journey aim reached window best).result := by
  induction moves generalizing window best with
  | done => exact pursues_pure complete
  | next action rest ih =>
      simp only [Moves.toList_next, List.forall_mem_cons] at playable
      rcases playable.1 with ⟨next, played⟩
      have inserted : (best.insert aim action (journey window next).result.score).truncated =
          false := by simpa
      simp only [Moves.toList_next, Game.outcomes_cons played, Journey.prune]
      apply Pursues.child played (searched window next)
      dsimp only
      split
      · exact pursues_pure inserted
      · exact ih () playable.2 _ _ inserted

variable [DecidableEq Player]

theorem solve_of_isLeaf (leaf : game.IsLeaf plies position) :
    game.solve value seeker plies position = .start (.int (value position)) := by
  cases plies with
  | zero => rfl
  | succ plies =>
      have stuck := leaf.resolve_left (Nat.succ_ne_zero plies)
      rcases status : game.status position with mover | winner
      · rw [Game.solve_of_turn status rfl, Game.successors_eq_nil.mpr (stuck mover)]
        rfl
      · exact Game.solve_of_over status

theorem minimax_of_isLeaf (leaf : game.IsLeaf plies position) :
    minimax game evaluator deadline seeker plies position =
      scoreLeaf evaluator seeker position := by
  cases plies with
  | zero => rfl
  | succ plies =>
      have stuck := leaf.resolve_left (Nat.succ_ne_zero plies)
      rcases status : game.status position with mover | winner
      · simp only [minimax, status, Game.legal_eq_done stuck]
        rfl
      · simp only [minimax, status]

theorem alphaBeta_of_isLeaf (leaf : game.IsLeaf plies position) :
    alphaBeta game evaluator deadline seeker plies window position =
      scoreLeaf evaluator seeker position := by
  cases plies with
  | zero => rfl
  | succ plies =>
      have stuck := leaf.resolve_left (Nat.succ_ne_zero plies)
      rcases status : game.status position with mover | winner
      · simp only [alphaBeta, status, Game.legal_eq_done stuck]
        rfl
      · simp only [alphaBeta, status]

/-- Minimax goes through its agenda. -/
theorem minimax_pursues (computes : ∀ position, evaluator.Computes valid seeker value position) :
    Pursues (fun deadline => minimax game evaluator.recorded deadline seeker plies position) valid
      (game.agenda plies position) (game.solve value seeker plies position) := by
  induction plies generalizing position with
  | zero => exact scoreLeaf_pursues (computes position)
  | succ plies ih =>
      by_cases leaf : game.IsLeaf (plies + 1) position
      · simp only [minimax_of_isLeaf leaf, Game.agenda_of_isLeaf leaf, solve_of_isLeaf leaf]
        exact scoreLeaf_pursues (computes position)
      · rcases Game.exists_turn_of_not_isLeaf leaf with ⟨mover, turn, movable⟩
        have found : (Tracker.bestOf (Aim.ofMover seeker mover)
            (fun next => (game.solve value seeker plies next).score)
            (game.successors position mover)).HoldsInteger :=
          Tracker.holdsInteger_bestOf _ (fun _ => Game.isInteger_solve) movable
        rw [Game.agenda_of_turn turn movable, Game.solve_of_turn turn rfl, if_pos found.hasAction]
        simp only [minimax, turn]
        apply Pursues.settle _ found.hasAction
        exact searchMoves_pursues (game.agenda plies) (game.solve value seeker plies) (fun _ => ih)
          (game.legal position mover) (fun _ => Game.play_of_mem_legal) _ rfl

/-- Alpha-beta search goes through its own course. -/
theorem alphaBeta_pursues (computes : ∀ position, evaluator.Computes valid seeker value position) :
    Pursues
      (fun deadline => alphaBeta game evaluator.recorded deadline seeker plies window position)
      valid (game.prune value seeker plies window position).course
      (game.prune value seeker plies window position).result := by
  induction plies generalizing position window with
  | zero => exact scoreLeaf_pursues (computes position)
  | succ plies ih =>
      by_cases leaf : game.IsLeaf (plies + 1) position
      · simp only [alphaBeta_of_isLeaf leaf, Game.prune_of_isLeaf leaf]
        exact scoreLeaf_pursues (computes position)
      · rcases Game.exists_turn_of_not_isLeaf leaf with ⟨mover, turn, movable⟩
        rw [Game.prune_of_turn turn movable]
        simp only [alphaBeta, turn]
        apply Pursues.settle
        · exact searchMovesWithin_pursues (game.prune value seeker plies) (fun _ _ => ih)
            (game.legal position mover) (fun _ => Game.play_of_mem_legal) _ _ rfl
        · apply Tracker.HoldsInteger.hasAction
          exact Journey.holdsInteger_prune_of_ne_nil (fun _ _ => Game.isInteger_prune) (.inl rfl)
            movable

namespace TreeMethod

/-- The journey of a search over a number of plies. -/
def journey (method : TreeMethod) (game : Game Position Player Action) (value : Position → Int)
    (seeker : Player) (plies : Nat) (position : Position) : Journey Position Action :=
  match method with
  | .minimax => ⟨game.agenda plies position, game.solve value seeker plies position⟩
  | .alphaBeta => game.prune value seeker plies .full position

theorem search_pursues (method : TreeMethod)
    (computes : ∀ position, evaluator.Computes valid seeker value position) :
    Pursues (fun deadline => method.search game evaluator.recorded deadline seeker plies position)
      valid (method.journey game value seeker plies position).course
      (method.journey game value seeker plies position).result := by
  cases method with
  | minimax => exact minimax_pursues computes
  | alphaBeta => exact alphaBeta_pursues computes

theorem spends_journey (method : TreeMethod) :
    game.Spends plies position (method.journey game value seeker plies position).course := by
  cases method with
  | minimax => exact game.spends_agenda plies position
  | alphaBeta => exact Game.spends_prune

end TreeMethod

end GameSearch
