import GameSearch.Proofs.Search.Completion
import GameSearch.Proofs.Search.Window
import GameSearch.Search.DepthLimited

/-!
# Scores whose sign can be trusted

An evaluator may know little of a game and still be right in what it says: the seeker wins where the
score is positive and loses where it is negative. A search that is cut off at any depth then says
nothing wrong either. What a mover is told about the best move, the mover can bring about by this
move; what is told about the worst case has been seen at every move, as long as the window has not
closed. `Window.Tried` carries both through the enumeration of moves.

The scores may differ from one time to the next, so there is no exact value to compare with; all
that is said of the score of a child is what it promises.
-/

namespace GameSearch

variable {Memory Position Player Action : Type} {game : Game Position Player Action}
  {evaluator : Evaluator Memory Position Player} {deadline : Deadline} {valid : Memory → Prop}
  {seeker mover : Player} {wins : Aim → Position → Prop} {position : Position} {plies : Nat}
  {window now : Window} {aim : Aim} {property weaker : Tracker Action → Prop}
  {search : SearchM Memory (Tracker Action)}

theorem SearchM.completes_pure {result : Tracker Action} (untruncated : result.truncated = false)
    (holds : property result) :
    (pure result : SearchM Memory (Tracker Action)).Completes deadline valid property :=
  fun _ fit => returns_pure.mpr ⟨fit, Tracker.completed_of_holds untruncated holds⟩

namespace SearchM.Completes

theorem settles (completes : search.Completes deadline valid property) :
    search.Settles deadline valid (fun _ => True) property :=
  fun effort fit => (completes effort fit).mono fun _ _ completed =>
    ⟨completed.1, completed.2, fun _ => trivial⟩

/-- The deadline is asked, then a child is searched, then the rest. -/
theorem child {child : Position → SearchM Memory (Tracker Action)}
    {rest : Tracker Action → SearchM Memory (Tracker Action)} {best : Tracker Action}
    {action : Action} {next : Position} (played : game.play position mover action = .ok next)
    (searched : (child next).Completes deadline valid weaker)
    (continued : ∀ result, weaker result → (rest result).Completes deadline valid property) :
    (do
      if ← SearchM.expired deadline then return best.truncate
      let result ← child (← game.play position mover action)
      if result.truncated then return best.truncate
      rest result : SearchM Memory (Tracker Action)).Completes deadline valid property := by
  refine Settles.completes (@Settles.child _ _ _ _ game deadline valid mover position
    (fun _ => True) property weaker child rest best action next played searched trivial ?_)
  exact fun result holds => (continued result holds).settles

/-- A best tracker that has an action is the answer; else the position is scored as it stands. -/
theorem settle {answer : Tracker Action → Prop}
    (completes : search.Completes deadline valid property)
    (found : ∀ best, property best → best.hasAction = true → answer best)
    (scored : ∀ best, property best → best.hasAction = false →
      (scoreLeaf evaluator seeker position : SearchM Memory (Tracker Action)).Completes deadline
        valid answer) :
    (do
      let best ← search
      if best.truncated || best.hasAction then return best
      scoreLeaf evaluator seeker position : SearchM Memory (Tracker Action)).Completes deadline
        valid answer := by
  intro effort fit
  rw [returns_bind]
  apply (completes effort fit).mono
  rintro best after ⟨kept, completed⟩
  split
  · rename_i answered
    refine returns_pure.mpr ⟨kept, completed.finished, fun untruncated => ?_⟩
    rw [untruncated, Bool.false_or] at answered
    exact found best (completed.holds untruncated) answered
  · rename_i unanswered
    simp only [Bool.or_eq_true, not_or, Bool.not_eq_true] at unanswered
    exact scored best (completed.holds unanswered.1) unanswered.2 after kept

end SearchM.Completes

/-- Whether a score is better than zero for an aim and than what the side with this aim is sure of
already. Scores at or past an end of the window may be mere bounds. -/
def Window.Vouches (window : Window) (aim : Aim) (score : Number) : Prop :=
  aim.rank (window.near aim) < aim.rank score ∧ aim.rank (.int 0) < aim.rank score

/-- Whether an evaluator scores a position with integers that speak only for a side that wins. -/
def Evaluator.SoundAt (evaluator : Evaluator Memory Position Player) (valid : Memory → Prop)
    (seeker : Player) (wins : Aim → Position → Prop) (position : Position) : Prop :=
  ∀ memory, valid memory → ∃ (score : Int) (after : Memory),
    evaluator.score position seeker memory = (.ok (.int score), after) ∧ valid after ∧
      (0 < score → wins .greatest position) ∧ (score < 0 → wins .least position)

/-- What a search inside a window can be trusted in: its score speaks only for a side that wins, and
if it speaks for the mover, then the action it has found keeps the win. -/
structure Window.Sound [DecidableEq Player] (window : Window) (game : Game Position Player Action)
    (seeker : Player) (wins : Aim → Position → Prop) (position : Position)
    (result : Tracker Action) : Prop where
  isInteger : result.score.IsInteger
  holds : ∀ aim, window.Vouches aim result.score → wins aim position
  action : ∀ mover action, game.status position = .turn mover → result.action = some action →
    window.Vouches (Aim.ofMover seeker mover) result.score →
      ∃ next, game.play position mover action = .ok next ∧ wins (Aim.ofMover seeker mover) next

/-- Whether wins are passed on from the positions that moves lead to: the mover wins with one of
them, the other side with all of them. -/
structure Game.PassesWins [DecidableEq Player] (game : Game Position Player Action)
    (seeker : Player) (wins : Aim → Position → Prop) : Prop where
  mover : ∀ position mover action next, game.status position = .turn mover →
    game.play position mover action = .ok next → wins (Aim.ofMover seeker mover) next →
      wins (Aim.ofMover seeker mover) position
  others : ∀ position mover, game.status position = .turn mover →
    game.successors position mover ≠ [] →
    (∀ entry ∈ game.successors position mover, wins (Aim.ofMover seeker mover).opposite entry.2) →
      wins (Aim.ofMover seeker mover).opposite position

namespace Window

theorem vouches_opposite_iff {score : Number} :
    window.Vouches aim.opposite score ↔
      aim.rank score < aim.rank (window.far aim) ∧ aim.rank score < aim.rank (.int 0) := by
  simp only [Vouches, near_opposite, Aim.rank_opposite, EReal.neg_lt_neg_iff]

theorem vouches_full_greatest {score : Int} : full.Vouches .greatest (.int score) ↔ 0 < score := by
  simp [Vouches, full, near, Aim.rank]

theorem vouches_full_least {score : Int} : full.Vouches .least (.int score) ↔ score < 0 := by
  rw [show Aim.least = Aim.greatest.opposite from rfl, vouches_opposite_iff]
  simp [Aim.rank, full, far]

/-- What is known of a mover's moves that have been tried: if the best score speaks for the mover,
it was found at a move that wins, and if it speaks for the other side, every move loses. -/
structure Tried (window : Window) (aim : Aim) (wins : Aim → Position → Prop)
    (reached : List (Action × Position)) (best : Tracker Action) : Prop where
  saw : best.SawIntegers aim
  hasAction_iff : best.hasAction = false ↔ reached = []
  win : window.Vouches aim best.score →
    ∃ entry ∈ reached, best.action = some entry.1 ∧ wins aim entry.2
  loss : window.Vouches aim.opposite best.score → ∀ entry ∈ reached, wins aim.opposite entry.2

variable {reached : List (Action × Position)} {best result : Tracker Action}

theorem tried_start (window : Window) (aim : Aim) (wins : Aim → Position → Prop) :
    window.Tried aim wins [] (.start aim.baseline : Tracker Action) where
  saw := .inl rfl
  hasAction_iff := ⟨fun _ => rfl, fun _ => rfl⟩
  win vouches := by
    have above := vouches.1
    simp [Tracker.start] at above
  loss _ := by simp

/-- A child that keeps the window open as far as the mover knows it is one more move tried. -/
theorem Tried.insert [DecidableEq Player] (tried : window.Tried aim wins reached best)
    (entry : Action × Position) (sound : now.Sound game seeker wins entry.2 result)
    (near_le : aim.rank (now.near aim) ≤
      max (aim.rank (window.near aim)) (aim.rank best.score))
    (far_eq : now.far aim = window.far aim) :
    window.Tried aim wins (reached ++ [entry]) (best.insert aim entry.1 result.score) := by
  have integer := sound.isInteger
  have holds := tried.saw.insert entry.1 integer
  refine ⟨.inr holds, ?_, ?_, ?_⟩
  · simp [holds.hasAction]
  · rcases lt_or_ge (aim.rank best.score) (aim.rank result.score) with better | worse
    · rw [Tracker.insert_of_lt tried.saw.isDefined integer.isDefined better]
      rintro ⟨above, positive⟩
      refine ⟨entry, by simp, rfl, sound.holds aim ⟨?_, positive⟩⟩
      exact near_le.trans_lt (max_lt above better)
    · rw [Tracker.insert_of_le tried.saw.isDefined integer.isDefined worse]
      intro vouches
      rcases tried.win vouches with ⟨earlier, mem, action_eq, won⟩
      exact ⟨earlier, List.mem_append_left _ mem, action_eq, won⟩
  · rw [vouches_opposite_iff, Tracker.rank_insert aim entry.1 tried.saw.isDefined integer.isDefined,
      max_lt_iff, max_lt_iff]
    rintro ⟨short, negative⟩ other mem
    rcases List.mem_append.mp mem with earlier | last
    · apply tried.loss _ other earlier
      exact vouches_opposite_iff.mpr ⟨short.1, negative.1⟩
    · rw [List.mem_singleton.mp last]
      apply sound.holds
      rw [vouches_opposite_iff, far_eq]
      exact ⟨short.2, negative.2⟩

/-- Once the window has closed, the moves that are left do not matter. -/
theorem Tried.append (tried : window.Tried aim wins reached best)
    (found : best.hasAction = true) (closed : aim.rank (window.far aim) ≤ aim.rank best.score)
    (others : List (Action × Position)) : window.Tried aim wins (reached ++ others) best := by
  have nonempty : reached ≠ [] := by
    intro none
    simp [tried.hasAction_iff.mpr none] at found
  refine ⟨tried.saw, by simp [found, nonempty], ?_, ?_⟩
  · intro vouches
    rcases tried.win vouches with ⟨entry, mem, action_eq, won⟩
    exact ⟨entry, List.mem_append_left _ mem, action_eq, won⟩
  · intro vouches
    exact absurd (vouches_opposite_iff.mp vouches).1 (not_lt.mpr closed)

/-- After all moves the best score can be trusted. -/
theorem Tried.sound [DecidableEq Player] (passes : game.PassesWins seeker wins)
    (turn : game.status position = .turn mover)
    (tried : window.Tried (Aim.ofMover seeker mover) wins (game.successors position mover) best)
    (found : best.hasAction = true) : window.Sound game seeker wins position best := by
  have movable : game.successors position mover ≠ [] := by
    intro none
    simp [tried.hasAction_iff.mpr none] at found
  have keeps : window.Vouches (Aim.ofMover seeker mover) best.score →
      ∃ action next, best.action = some action ∧ game.play position mover action = .ok next ∧
        wins (Aim.ofMover seeker mover) next := by
    intro vouches
    rcases tried.win vouches with ⟨entry, mem, action_eq, won⟩
    exact ⟨entry.1, entry.2, action_eq, Game.mem_successors.mp mem, won⟩
  refine ⟨tried.saw.isInteger found, ?_, ?_⟩
  · intro aim vouches
    rcases (Aim.ofMover seeker mover).eq_or_eq_opposite aim with rfl | rfl
    · rcases keeps vouches with ⟨action, next, -, played, won⟩
      exact passes.mover position mover action next turn played won
    · exact passes.others position mover turn movable (tried.loss vouches)
  · intro other action other_turn action_eq vouches
    rw [turn, Status.turn.injEq] at other_turn
    subst other_turn
    rcases keeps vouches with ⟨stored, next, stored_eq, played, won⟩
    rw [stored_eq, Option.some.injEq] at action_eq
    subst action_eq
    exact ⟨next, played, won⟩

/-- What a mover has made of a window with the scores so far. -/
structure Narrowed (window : Window) (aim : Aim) (score : Number) (now : Window) : Prop where
  isOpen : now.IsOpen
  far_eq : now.far aim = window.far aim
  near_le : aim.rank (now.near aim) ≤ max (aim.rank (window.near aim)) (aim.rank score)

theorem narrowed_start (isOpen : window.IsOpen) (aim : Aim) (score : Number) :
    window.Narrowed aim score window :=
  ⟨isOpen, rfl, le_max_left _ _⟩

variable {score : Number}

theorem Narrowed.narrow (narrowed : window.Narrowed aim best.score now)
    (saw : best.SawIntegers aim) (integer : score.IsInteger) (action : Action)
    (unclosed : (now.narrow score aim).isClosed = false) :
    window.Narrowed aim (best.insert aim action score).score (now.narrow score aim) := by
  have nearDefined := narrowed.isOpen.isDefined_near aim
  have farDefined := narrowed.isOpen.isDefined_far aim
  have narrowedDefined := isDefined_near_narrow nearDefined integer.isDefined
  refine ⟨?_, far_narrow.trans narrowed.far_eq, ?_⟩
  · rw [isOpen_iff narrowedDefined (by rwa [far_narrow]), ← not_le,
      ← isClosed_iff narrowedDefined (by rwa [far_narrow]), unclosed]
    exact Bool.false_ne_true
  · rw [rank_near_narrow nearDefined integer.isDefined,
      Tracker.rank_insert aim action saw.isDefined integer.isDefined, ← max_assoc]
    exact max_le_max_right _ narrowed.near_le

/-- Only a score at the far end closes a window. -/
theorem Narrowed.far_le (narrowed : window.Narrowed aim best.score now)
    (saw : best.SawIntegers aim) (integer : score.IsInteger) (action : Action)
    (closed : (now.narrow score aim).isClosed = true) :
    aim.rank (window.far aim) ≤ aim.rank (best.insert aim action score).score := by
  have nearDefined := narrowed.isOpen.isDefined_near aim
  have farDefined := narrowed.isOpen.isDefined_far aim
  have isOpen := (isOpen_iff nearDefined farDefined).mp narrowed.isOpen
  rw [isClosed_iff (isDefined_near_narrow nearDefined integer.isDefined) (by rwa [far_narrow]),
    far_narrow, rank_near_narrow nearDefined integer.isDefined, le_max_iff] at closed
  rw [Tracker.rank_insert aim action saw.isDefined integer.isDefined, ← narrowed.far_eq]
  exact (closed.resolve_left (not_le.mpr isOpen)).trans (le_max_right _ _)

end Window

variable [DecidableEq Player] {reached : List (Action × Position)} {best : Tracker Action}

theorem scoreLeaf_sound (soundAt : evaluator.SoundAt valid seeker wins position) :
    (scoreLeaf evaluator seeker position : SearchM Memory (Tracker Action)).Completes deadline valid
      (window.Sound game seeker wins position) := by
  intro effort fit
  rcases soundAt effort.memory fit with ⟨score, after, scored, kept, positive, negative⟩
  simp only [scoreLeaf, SearchM.returns_bind, SearchM.returns_evaluate, SearchM.returns_pure]
  refine ⟨.int score, after, scored, kept, Tracker.completed_of_holds rfl ⟨⟨score, rfl⟩, ?_, ?_⟩⟩
  · rintro (_ | _) ⟨-, speaks⟩
    · exact positive (by simpa [Aim.rank, Tracker.start] using speaks)
    · exact negative (by simpa [Aim.rank, Tracker.start] using speaks)
  · intro mover action _ stored
    cases stored

/-- After its moves a position can be trusted, also if there were none. -/
theorem settle_sound (passes : game.PassesWins seeker wins)
    (turn : game.status position = .turn mover)
    (stuck : (∀ player, (game.legal position player).toList = []) →
      evaluator.SoundAt valid seeker wins position)
    (completes : search.Completes deadline valid
      (window.Tried (Aim.ofMover seeker mover) wins (game.successors position mover))) :
    (do
      let best ← search
      if best.truncated || best.hasAction then return best
      scoreLeaf evaluator seeker position : SearchM Memory (Tracker Action)).Completes deadline
        valid (window.Sound game seeker wins position) := by
  apply completes.settle
  · exact fun best tried found => tried.sound passes turn found
  · intro best tried unanswered
    apply scoreLeaf_sound
    have none : game.successors position mover = [] := tried.hasAction_iff.mp unanswered
    exact stuck (Game.legal_eq_nil_of_turn turn (Game.successors_eq_nil.mp none))

theorem searchMoves_tried {child : Position → SearchM Memory (Tracker Action)}
    (searched : ∀ action next, game.play position mover action = .ok next →
      (child next).Completes deadline valid (Window.full.Sound game seeker wins next))
    (moves : Moves Action)
    (playable : ∀ action ∈ moves.toList, ∃ next, game.play position mover action = .ok next)
    (tried : Window.full.Tried aim wins reached best) :
    (searchMoves game deadline child position mover aim moves best).Completes deadline valid
      (Window.full.Tried aim wins (reached ++ game.outcomes position mover moves.toList)) := by
  induction moves generalizing reached best with
  | done =>
      rw [Moves.toList_done, Game.outcomes_nil, List.append_nil]
      exact SearchM.completes_pure tried.saw.not_truncated tried
  | next action rest ih =>
      simp only [Moves.toList_next, List.forall_mem_cons] at playable
      rcases playable.1 with ⟨next, played⟩
      apply SearchM.Completes.child played (searched action next played)
      intro result sound
      rw [Moves.toList_next, Game.outcomes_cons played, List.append_cons]
      exact ih () playable.2 (tried.insert (action, next) sound (le_max_left _ _) rfl)

theorem searchMovesWithin_tried {child : Window → Position → SearchM Memory (Tracker Action)}
    (searched : ∀ inner action next, inner.IsOpen → game.play position mover action = .ok next →
      (child inner next).Completes deadline valid (inner.Sound game seeker wins next))
    (moves : Moves Action)
    (playable : ∀ action ∈ moves.toList, ∃ next, game.play position mover action = .ok next)
    (narrowed : window.Narrowed aim best.score now)
    (tried : window.Tried aim wins reached best) :
    (searchMovesWithin game deadline child position mover aim moves now best).Completes deadline
      valid (window.Tried aim wins (reached ++ game.outcomes position mover moves.toList)) := by
  induction moves generalizing reached best now with
  | done =>
      rw [Moves.toList_done, Game.outcomes_nil, List.append_nil]
      exact SearchM.completes_pure tried.saw.not_truncated tried
  | next action rest ih =>
      simp only [Moves.toList_next, List.forall_mem_cons] at playable
      rcases playable.1 with ⟨next, played⟩
      apply SearchM.Completes.child played (searched now action next narrowed.isOpen played)
      intro result sound
      have inserted := tried.insert (action, next) sound narrowed.near_le narrowed.far_eq
      rw [Moves.toList_next, Game.outcomes_cons played, List.append_cons]
      dsimp only
      split
      · rename_i closed
        have holds := tried.saw.insert action sound.isInteger
        have reachedEnd := narrowed.far_le tried.saw sound.isInteger action closed
        apply SearchM.completes_pure inserted.saw.not_truncated
        exact inserted.append holds.hasAction reachedEnd _
      · rename_i unclosed
        apply ih () playable.2 _ inserted
        exact narrowed.narrow tried.saw sound.isInteger action (by simpa using unclosed)

/-- The scores of minimax can be trusted if those of the evaluator can. -/
theorem minimax_sound (passes : game.PassesWins seeker wins)
    (sound : game.AtLeaves (evaluator.SoundAt valid seeker wins) plies position) :
    (minimax game evaluator deadline seeker plies position).Completes deadline valid
      (Window.full.Sound game seeker wins position) := by
  induction plies generalizing position with
  | zero => exact scoreLeaf_sound sound
  | succ plies ih =>
      rcases status : game.status position with mover | winner
      · simp only [minimax, status]
        have tried := searchMoves_tried
          (fun action next played => ih (sound.2 mover action next played))
          (game.legal position mover) (fun action legal => Game.play_of_mem_legal legal)
          (Window.tried_start .full (Aim.ofMover seeker mover) wins)
        exact settle_sound passes status sound.1 tried
      · simp only [minimax, status]
        exact scoreLeaf_sound (sound.1 (Game.legal_eq_nil_of_over status))

/-- Inside every open window, so can the scores of alpha-beta search. -/
theorem alphaBeta_sound (passes : game.PassesWins seeker wins) (isOpen : window.IsOpen)
    (sound : game.AtLeaves (evaluator.SoundAt valid seeker wins) plies position) :
    (alphaBeta game evaluator deadline seeker plies window position).Completes deadline valid
      (window.Sound game seeker wins position) := by
  induction plies generalizing position window with
  | zero => exact scoreLeaf_sound sound
  | succ plies ih =>
      rcases status : game.status position with mover | winner
      · simp only [alphaBeta, status]
        have tried := searchMovesWithin_tried
          (fun inner action next innerOpen played =>
            ih innerOpen (sound.2 mover action next played))
          (game.legal position mover) (fun action legal => Game.play_of_mem_legal legal)
          (Window.narrowed_start isOpen (Aim.ofMover seeker mover) _)
          (Window.tried_start window (Aim.ofMover seeker mover) wins)
        exact settle_sound passes status sound.1 tried
      · simp only [alphaBeta, status]
        exact scoreLeaf_sound (sound.1 (Game.legal_eq_nil_of_over status))

/-- Whatever its depth, a search says of a position only what is true, if its evaluator does. -/
theorem TreeMethod.run_sound (method : TreeMethod) (deadline : Deadline)
    (passes : game.PassesWins seeker wins) {depth : Int} (limited : 0 ≤ depth)
    (sound : game.AtLeaves (evaluator.SoundAt valid seeker wins) depth.toNat position) :
    (method.run game evaluator deadline depth seeker position).Completes deadline valid
      (Window.full.Sound game seeker wins position) := by
  rw [TreeMethod.run_of_limited limited]
  cases method with
  | minimax => exact minimax_sound passes sound
  | alphaBeta => exact alphaBeta_sound passes Window.isOpen_full sound

end GameSearch
