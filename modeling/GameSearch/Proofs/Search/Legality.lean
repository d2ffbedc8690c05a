import GameSearch.Proofs.Decimal.Written
import GameSearch.Proofs.Search.Interruption
import GameSearch.Search.SingleLevel

/-!
# Legal choices

Whatever its evaluator answers and whenever its deadline passes, a search stores no action that is
not legal where it starts. A tree search that is cut short before its first child is done has stored
none; then the first legal action stands in. Greedy search asks no deadline, and the first integer
it sees improves on the baseline.
-/

namespace GameSearch

variable {Memory Position Player Action : Type} {game : Game Position Player Action}
  {evaluator : Evaluator Memory Position Player} {deadline : Deadline} {valid : Memory → Prop}
  {seeker mover player : Player} {position : Position} {plies : Nat} {effort : Effort Memory}
  {aim : Aim}

namespace Tracker

variable {tracker : Tracker Action} {action : Action}

/-- Whether the action of a tracker, if there is one, is legal for the player to move. -/
def HoldsLegal (game : Game Position Player Action) (position : Position)
    (tracker : Tracker Action) : Prop :=
  ∀ action, tracker.action = some action →
    ∃ player, game.status position = .turn player ∧ action ∈ game.legal position player

theorem holdsLegal_start (score : Number) :
    (start score : Tracker Action).HoldsLegal game position := by
  intro action stored
  cases stored

theorem HoldsLegal.truncate (holds : tracker.HoldsLegal game position) :
    tracker.truncate.HoldsLegal game position := holds

theorem HoldsLegal.insert (holds : tracker.HoldsLegal game position)
    (turn : game.status position = .turn mover) (legal : action ∈ game.legal position mover)
    (aim : Aim) (score : Number) : (tracker.insert aim action score).HoldsLegal game position := by
  intro other stored
  unfold Tracker.insert at stored
  split at stored
  · rcases Option.some.inj stored with rfl
    exact ⟨mover, turn, legal⟩
  · exact holds other stored

theorem HoldsLegal.mem_legal (holds : tracker.HoldsLegal game position)
    (turn : game.status position = .turn mover) (stored : tracker.action = some action) :
    action ∈ game.legal position mover := by
  rcases holds action stored with ⟨player, same, legal⟩
  rw [turn, Status.turn.injEq] at same
  rwa [same]

end Tracker

/-- Whether a search that starts with a valid memory always returns a tracker with no action but a
legal one, and leaves a valid memory behind. -/
def SearchM.OnlyLegal (search : SearchM Memory (Tracker Action))
    (game : Game Position Player Action) (valid : Memory → Prop) (position : Position) : Prop :=
  ∀ effort, valid effort.memory → search.Returns effort fun result after =>
    valid after.memory ∧ result.HoldsLegal game position

theorem scoreLeaf_onlyLegal (neverFails : evaluator.NeverFails valid) :
    (scoreLeaf evaluator seeker position : SearchM Memory (Tracker Action)).OnlyLegal game valid
      position := by
  intro effort fit
  rcases neverFails.score position seeker effort.memory fit with ⟨score, after, scored, kept⟩
  simp only [scoreLeaf, SearchM.returns_bind, SearchM.returns_evaluate, SearchM.returns_pure]
  exact ⟨score, after, scored, kept, Tracker.holdsLegal_start score⟩

theorem SearchM.OnlyLegal.settle {search : SearchM Memory (Tracker Action)}
    (onlyLegal : search.OnlyLegal game valid position) (neverFails : evaluator.NeverFails valid) :
    (do
      let best ← search
      if best.truncated || best.hasAction then return best
      scoreLeaf evaluator seeker position : SearchM Memory (Tracker Action)).OnlyLegal game valid
        position := by
  intro effort fit
  rw [returns_bind]
  refine (onlyLegal effort fit).mono ?_
  rintro best after ⟨kept, holds⟩
  split
  · exact returns_pure.mpr ⟨kept, holds⟩
  · exact scoreLeaf_onlyLegal neverFails after kept

/-- The deadline is asked, then a child is searched, then the rest. -/
theorem SearchM.OnlyLegal.child {child : Position → SearchM Memory (Tracker Action)}
    {rest : Tracker Action → SearchM Memory (Tracker Action)} {best : Tracker Action}
    {action : Action} (holds : best.HoldsLegal game position)
    (legal : action ∈ game.legal position mover)
    (searched : ∀ next, (child next).OnlyLegal game valid next)
    (continued : ∀ result, (rest result).OnlyLegal game valid position) :
    (do
      if ← SearchM.expired deadline then return best.truncate
      let result ← child (← game.play position mover action)
      if result.truncated then return best.truncate
      rest result : SearchM Memory (Tracker Action)).OnlyLegal game valid position := by
  rcases (game.play_isOk position mover action).mpr legal with ⟨next, played⟩
  intro effort fit
  simp only [returns_bind, returns_expired]
  split
  · exact returns_pure.mpr ⟨fit, holds.truncate⟩
  · simp only [returns_bind, returns_lift]
    refine ⟨next, played, (searched next { effort with checks := effort.checks + 1 } fit).mono ?_⟩
    rintro result after ⟨kept, -⟩
    split
    · exact returns_pure.mpr ⟨kept, holds.truncate⟩
    · exact continued result after kept

theorem searchMoves_onlyLegal {child : Position → SearchM Memory (Tracker Action)}
    (searched : ∀ next, (child next).OnlyLegal game valid next)
    (turn : game.status position = .turn mover) (moves : Moves Action)
    (legal : ∀ action ∈ moves.toList, action ∈ game.legal position mover)
    (best : Tracker Action) (holds : best.HoldsLegal game position) :
    (searchMoves game deadline child position mover aim moves best).OnlyLegal game valid
      position := by
  induction moves generalizing best with
  | done => exact fun effort fit => SearchM.returns_pure.mpr ⟨fit, holds⟩
  | next action rest ih =>
      simp only [Moves.toList_next, List.forall_mem_cons] at legal
      apply SearchM.OnlyLegal.child holds legal.1 searched
      intro result
      exact ih () legal.2 _ (holds.insert turn legal.1 aim result.score)

theorem searchMovesWithin_onlyLegal
    {child : Window → Position → SearchM Memory (Tracker Action)}
    (searched : ∀ window next, (child window next).OnlyLegal game valid next)
    (turn : game.status position = .turn mover) (moves : Moves Action)
    (legal : ∀ action ∈ moves.toList, action ∈ game.legal position mover) (window : Window)
    (best : Tracker Action) (holds : best.HoldsLegal game position) :
    (searchMovesWithin game deadline child position mover aim moves window best).OnlyLegal game
      valid position := by
  induction moves generalizing best window with
  | done => exact fun effort fit => SearchM.returns_pure.mpr ⟨fit, holds⟩
  | next action rest ih =>
      simp only [Moves.toList_next, List.forall_mem_cons] at legal
      apply SearchM.OnlyLegal.child holds legal.1 (searched window)
      intro result
      have inserted := holds.insert turn legal.1 aim result.score
      dsimp only
      split
      · exact fun effort fit => SearchM.returns_pure.mpr ⟨fit, inserted⟩
      · exact ih () legal.2 _ _ inserted

section Tree

variable [DecidableEq Player]

theorem minimax_onlyLegal (neverFails : evaluator.NeverFails valid) :
    (minimax game evaluator deadline seeker plies position).OnlyLegal game valid position := by
  induction plies generalizing position with
  | zero => exact scoreLeaf_onlyLegal neverFails
  | succ plies ih =>
      rcases status : game.status position with mover | winner
      · simp only [minimax, status]
        apply SearchM.OnlyLegal.settle _ neverFails
        apply searchMoves_onlyLegal (fun _ => ih) status _ (fun _ => id)
        exact Tracker.holdsLegal_start _
      · simp only [minimax, status]
        exact scoreLeaf_onlyLegal neverFails

theorem alphaBeta_onlyLegal (neverFails : evaluator.NeverFails valid) (window : Window) :
    (alphaBeta game evaluator deadline seeker plies window position).OnlyLegal game valid
      position := by
  induction plies generalizing position window with
  | zero => exact scoreLeaf_onlyLegal neverFails
  | succ plies ih =>
      rcases status : game.status position with mover | winner
      · simp only [alphaBeta, status]
        apply SearchM.OnlyLegal.settle _ neverFails
        apply searchMovesWithin_onlyLegal (fun window _ => ih window) status _ (fun _ => id)
        exact Tracker.holdsLegal_start _
      · simp only [alphaBeta, status]
        exact scoreLeaf_onlyLegal neverFails

theorem TreeMethod.run_onlyLegal (method : TreeMethod) {depth : Int} (limited : 0 ≤ depth)
    (neverFails : evaluator.NeverFails valid) :
    (method.run game evaluator deadline depth seeker position).OnlyLegal game valid position := by
  rw [TreeMethod.run_of_limited limited]
  cases method with
  | minimax => exact minimax_onlyLegal neverFails
  | alphaBeta => exact alphaBeta_onlyLegal neverFails .full

theorem TreeMethod.title_of_writable (method : TreeMethod) {depth : Int}
    (writable : Numeral.Writable depth) : ∃ text, method.title depth = .ok text := by
  simp only [title, Numeral.written_of_writable writable]
  exact ⟨_, rfl⟩

theorem TreeMethod.title_of_not_writable (method : TreeMethod) {depth : Int}
    (long : ¬Numeral.Writable depth) : method.title depth = .error .unwrittenInteger := by
  simp only [title, Numeral.written_of_not_writable long]
  rfl

/-- Once its tracker holds an action, a tree search gives this action, unless its deadline has cut it
short and it has to note a depth that cannot be written. -/
theorem TreeMethod.report_comesTo (method : TreeMethod) (depth : Int) {best : Tracker Action}
    {action : Action} (stored : best.action = some action)
    (passes : best.truncated = true → ¬deadline.NeverPasses) (fit : valid effort.memory) :
    (do
      if best.truncated then
        SearchM.note .debug .treeSearch
          ((← method.title depth) ++ ": deadline exceeded, using best action so far")
      best.action? : SearchM Memory Action).ComesTo effort
        (fun chosen after => valid after.memory ∧ chosen = action)
        fun fault =>
          fault = .unwrittenInteger ∧ ¬Numeral.Writable depth ∧ ¬deadline.NeverPasses := by
  have answer : best.action? = .ok action := by rw [Tracker.action?, stored]
  split
  · rename_i truncated
    by_cases writable : Numeral.Writable depth
    · rcases method.title_of_writable writable with ⟨text, titled⟩
      refine SearchM.Returns.comesTo ?_
      simp only [SearchM.returns_bind, SearchM.returns_note, SearchM.returns_lift]
      exact ⟨text, titled, action, answer, fit, rfl⟩
    · rw [method.title_of_not_writable writable, SearchM.comesTo_bind]
      exact SearchM.comesTo_lift_error.mpr ⟨rfl, writable, passes truncated⟩
  · exact (SearchM.returns_lift.mpr ⟨action, answer, fit, rfl⟩).comesTo

/-- A tree search picks a legal action, however little time it has, unless its deadline passes and it
has to note a depth that cannot be written. -/
theorem TreeMethod.pick_comesTo (method : TreeMethod) {depth : Int} (limited : 0 ≤ depth)
    (neverFails : evaluator.NeverFails valid) (turn : game.status position = .turn player)
    {first : Action} (available : game.firstLegal position player = some first)
    (fit : valid effort.memory) :
    (method.pick game evaluator deadline depth player position).ComesTo effort
      (fun action after => valid after.memory ∧ action ∈ game.legal position player)
      fun fault =>
        fault = .unwrittenInteger ∧ ¬Numeral.Writable depth ∧ ¬deadline.NeverPasses := by
  have onlyLegal : (method.run game evaluator deadline depth player position).OnlyLegal game valid
      position := method.run_onlyLegal limited neverFails
  rcases onlyLegal effort fit with ⟨result, after, ran, kept, holds⟩
  have passes : result.truncated = true → ¬deadline.NeverPasses := by
    intro truncated never
    have heeded := TreeMethod.heeds_run method deadline effort result after ran
    rcases heeded.truncated_iff.mp truncated with ⟨check, -, -, passed⟩
    rw [never check] at passed
    cases passed
  rw [TreeMethod.pick, SearchM.comesTo_bind]
  refine SearchM.Returns.comesTo ⟨result, after, ran, ?_⟩
  beta_reduce
  cases stored : result.action with
  | none =>
      -- Nothing was stored in time, or nothing could be, as without any depth.
      simp only [available]
      have fallback : (result.withFallback first).action = some first := by
        rw [Tracker.withFallback, stored]
        rfl
      refine (method.report_comesTo depth fallback passes kept).mono ?_
      rintro _ _ ⟨kept, rfl⟩
      exact ⟨kept, Game.mem_legal_of_firstLegal available⟩
  | some action =>
      refine (method.report_comesTo depth stored passes kept).mono ?_
      rintro _ _ ⟨kept, rfl⟩
      exact ⟨kept, holds.mem_legal turn stored⟩

end Tree

/-- Whether an evaluator with a valid memory gives every position an integer score for every player
and keeps its memory valid. -/
structure Evaluator.ScoresIntegers (evaluator : Evaluator Memory Position Player)
    (valid : Memory → Prop) : Prop where
  startSearch : ∀ memory, valid memory → valid (evaluator.startSearch memory)
  score : ∀ position side memory, valid memory → ∃ (score : Int) (after : Memory),
    evaluator.score position side memory = (.ok (.int score), after) ∧ valid after

theorem Evaluator.ScoresIntegers.neverFails (scores : evaluator.ScoresIntegers valid) :
    evaluator.NeverFails valid := by
  refine ⟨scores.startSearch, ?_⟩
  intro position side memory fit
  rcases scores.score position side memory fit with ⟨score, after, scored, kept⟩
  exact ⟨.int score, after, scored, kept⟩

/-- A greedy search over at least one move comes to an integer, and its action is one of the moves
unless it was stored before. -/
theorem scoreMoves_onlyLegal (scores : evaluator.ScoresIntegers valid)
    (turn : game.status position = .turn player) (moves : Moves Action)
    (legal : ∀ action ∈ moves.toList, action ∈ game.legal position player)
    (best : Tracker Action) (saw : best.SawIntegers .greatest)
    (holds : best.HoldsLegal game position) (fit : valid effort.memory) :
    (scoreMoves game evaluator position player moves best).Returns effort fun result after =>
      valid after.memory ∧ result.HoldsLegal game position ∧
        (result.HoldsInteger ∨ moves.toList = [] ∧ result = best) := by
  induction moves generalizing best effort with
  | done => exact SearchM.returns_pure.mpr ⟨fit, holds, .inr ⟨rfl, rfl⟩⟩
  | next action rest ih =>
      simp only [Moves.toList_next, List.forall_mem_cons] at legal
      rcases (game.play_isOk position player action).mpr legal.1 with ⟨next, played⟩
      rcases scores.score next player effort.memory fit with ⟨score, after, scored, kept⟩
      simp only [scoreMoves, SearchM.returns_bind, SearchM.returns_lift, SearchM.returns_evaluate]
      refine ⟨next, played, .int score, after, scored, ?_⟩
      have integer := saw.insert action ⟨score, rfl⟩
      have inserted := holds.insert turn legal.1 .greatest (.int score)
      refine (ih () legal.2 _ (.inr integer) inserted kept).mono ?_
      rintro result last ⟨kept, holds, found | ⟨-, rfl⟩⟩
      · exact ⟨kept, holds, .inl found⟩
      · exact ⟨kept, holds, .inl integer⟩

/-- With an evaluator that scores integers, greedy search picks a legal action. -/
theorem pickGreedy_returns_legal (scores : evaluator.ScoresIntegers valid)
    (turn : game.status position = .turn player)
    (movable : (game.legal position player).toList ≠ []) (fit : valid effort.memory) :
    (pickGreedy game evaluator position player).Returns effort
      fun action after => valid after.memory ∧ action ∈ game.legal position player := by
  rw [pickGreedy, SearchM.returns_bind]
  have scored := scoreMoves_onlyLegal scores turn (game.legal position player) (fun _ => id)
    (.start .below) (.inl rfl) (Tracker.holdsLegal_start _) fit
  refine scored.mono ?_
  rintro result after ⟨kept, holds, ⟨value, action, found⟩ | ⟨stuck, -⟩⟩
  · have stored : result.action = some action := by rw [found]
    have answer : result.action? = .ok action := by rw [Tracker.action?, stored]
    exact SearchM.returns_lift.mpr ⟨action, answer, kept, holds.mem_legal turn stored⟩
  · exact absurd stuck movable

end GameSearch
