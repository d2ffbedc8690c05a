import GameSearch.Proofs.Search.Pursuit

/-!
# What pruning saves

Alpha-beta search goes through parts of what minimax goes through: it scores fewer positions and
asks its deadline less often. So under every deadline it gets at least as far, and for the mover at
the root further can only be better.
-/

namespace GameSearch

open Course

variable {Memory Position Player Action : Type} {aim : Aim}

namespace Aim

/-- Whether a score can be compared with another one and is at least as good. -/
structure AsGood (aim : Aim) (score other : Number) : Prop where
  isDefined : score.IsDefined
  other_isDefined : other.IsDefined
  rank_le : aim.rank other ≤ aim.rank score

variable {score middle other : Number}

theorem AsGood.refl (isDefined : score.IsDefined) : aim.AsGood score score :=
  ⟨isDefined, isDefined, le_rfl⟩

theorem AsGood.trans (better : aim.AsGood score middle) (good : aim.AsGood middle other) :
    aim.AsGood score other :=
  ⟨better.isDefined, good.other_isDefined, good.rank_le.trans better.rank_le⟩

theorem AsGood.atMost (better : Aim.greatest.AsGood score other) : other.atMost score = true :=
  (Number.atMost_iff better.other_isDefined better.isDefined).mpr better.rank_le

end Aim

theorem Tracker.SawIntegers.asGood_insert {tracker : Tracker Action} {score : Number}
    (saw : tracker.SawIntegers aim) (action : Action) (integer : score.IsInteger) :
    aim.AsGood (tracker.insert aim action score).score tracker.score := by
  refine ⟨(saw.insert action integer).isInteger.isDefined, saw.isDefined, ?_⟩
  rw [rank_insert aim action saw.isDefined integer.isDefined]
  exact le_max_left _ _

variable {game : Game Position Player Action} {evaluator : Evaluator Memory Position Player}
  {deadline : Deadline} {valid : Memory → Prop} {seeker mover : Player} {value : Position → Int}
  {position next : Position} {plies : Nat} {window now : Window} {best found : Tracker Action}

/-- Wherever a loop stops, it has lost nothing. -/
theorem searchMovesWithin_asGood {child : Window → Position → SearchM Memory (Tracker Action)}
    (searched : ∀ window next, (child window next).Completes deadline valid
      fun result => result.score.IsInteger)
    (moves : Moves Action)
    (playable : ∀ action ∈ moves.toList, ∃ next, game.play position mover action = .ok next)
    (window : Window) (best : Tracker Action) (saw : best.SawIntegers aim) :
    (searchMovesWithin game deadline child position mover aim moves window best).Settles deadline
      valid (fun result => aim.AsGood result.score best.score)
      fun result => aim.AsGood result.score best.score := by
  induction moves generalizing window best with
  | done => exact SearchM.settles_pure saw.not_truncated (.refl saw.isDefined)
  | next action rest ih =>
      simp only [Moves.toList_next, List.forall_mem_cons] at playable
      rcases playable.1 with ⟨next, played⟩
      apply SearchM.Settles.child played (searched window next) (.refl saw.isDefined)
      intro result integer
      have holds := saw.insert action integer
      have grown := saw.asGood_insert action integer
      dsimp only
      split
      · have saw : Tracker.SawIntegers _ aim := .inr holds
        exact SearchM.settles_pure saw.not_truncated grown
      · refine (ih () playable.2 _ _ (.inr holds)).mono ?_ ?_
        · exact fun final better => better.trans grown
        · exact fun final better => better.trans grown

variable [DecidableEq Player] {early late : Effort (Memory × Trail Position)}

/-- Where minimax would come to its end in time, alpha-beta search does. -/
theorem alphaBeta_returns_in_time
    (computes : ∀ position, evaluator.Computes valid seeker value position)
    (isOpen : window.IsOpen) (fit : valid early.memory.1)
    (unpassed : ¬deadline.PassesBetween 0 (early.checks + asks (game.agenda plies position))) :
    (alphaBeta game evaluator.recorded deadline seeker plies window position).Returns early
      fun result after => valid after.memory.1 ∧ result.truncated = false ∧
        after.checks ≤ early.checks + asks (game.agenda plies position) ∧
        window.Approximates (game.solve value seeker plies position) result ∧
        result.score.IsInteger := by
  have pursues := @alphaBeta_pursues _ _ _ _ game evaluator valid seeker value position plies window
    _ computes
  have spends := @Game.spends_prune _ _ _ _ game value seeker plies window position
  have completes : (alphaBeta game evaluator.recorded deadline seeker plies window
      position).Completes deadline _ _ :=
    alphaBeta_completes isOpen (Game.atLeaves_of_forall fun leaf => (computes leaf).recorded)
  refine ((pursues deadline early fit).and (completes early fit)).mono ?_
  rintro result after ⟨⟨kept, pursued⟩, -, completed⟩
  have fewer := spends.asks_le
  have complete : result.truncated = false := by
    rw [← Bool.not_eq_true, pursued.truncated_iff]
    intro cuts
    apply unpassed
    exact cuts.mono (Nat.zero_le _) (Nat.add_le_add_left fewer _)
  have checks_eq := (pursued.whole complete).1
  exact ⟨kept, complete, by omega, completed.holds complete⟩

theorem alphaBeta_loop_asGood
    (computes : ∀ position, evaluator.Computes valid seeker value position) (moves : Moves Action)
    (playable : ∀ action ∈ moves.toList, ∃ next, game.play position mover action = .ok next)
    (window : Window) (saw : best.SawIntegers aim) (fit : valid early.memory.1) :
    (searchMovesWithin game deadline (alphaBeta game evaluator.recorded deadline seeker plies)
      position mover aim moves window best).Returns early fun result _ =>
        aim.AsGood result.score best.score := by
  have searched : ∀ window next,
      (alphaBeta game evaluator.recorded deadline seeker plies window next).Completes deadline
        (fun memory => valid memory.1) fun result => result.score.IsInteger := by
    intro window next
    refine (alphaBeta_pursues computes).completes.mono ?_
    rintro _ rfl
    exact Game.isInteger_prune
  refine (searchMovesWithin_asGood searched moves playable window best saw early fit).mono ?_
  rintro result after ⟨-, settled⟩
  cases truncated : result.truncated with
  | true => exact settled.cut truncated
  | false => exact settled.holds truncated

/-- Where minimax would search a move in time, alpha-beta search does, and finds the same best move
so far. -/
theorem alphaBeta_loop_step {action : Action} {rest : Unit → Moves Action}
    (computes : ∀ position, evaluator.Computes valid seeker value position)
    (played : game.play position mover action = .ok next)
    (follows : Window.full.Follows aim found found now) (fit : valid early.memory.1)
    (unpassed : ¬deadline.PassesBetween 0 (early.checks + 1 + asks (game.agenda plies next))) :
    let grown := found.insert aim action (game.solve value seeker plies next).score
    ∃ narrowed after, Window.full.Follows aim grown grown narrowed ∧ valid after.memory.1 ∧
      after.checks ≤ early.checks + 1 + asks (game.agenda plies next) ∧
      ∀ condition,
        (searchMovesWithin game deadline (alphaBeta game evaluator.recorded deadline seeker plies)
          position mover aim (rest ()) narrowed grown).Returns after condition →
        (searchMovesWithin game deadline (alphaBeta game evaluator.recorded deadline seeker plies)
          position mover aim (.next action rest) now found).Returns early condition := by
  intro grown
  have unasked : ¬deadline.passed (early.checks + 1) = true := by
    intro passed
    apply unpassed
    exact ⟨_, Nat.zero_lt_succ _, Nat.le_add_right _ _, passed⟩
  rcases @alphaBeta_returns_in_time _ _ _ _ game evaluator deadline valid seeker value next plies
    now _ { early with checks := early.checks + 1 } computes follows.isOpen fit unpassed with
    ⟨result, after, ran, kept, complete, checks_le, approximates, integer⟩
  have unclosed := follows.isClosed_narrow_of_full integer
  have followed : Window.full.Follows aim grown (found.insert aim action result.score)
      (now.narrow result.score aim) :=
    follows.insert approximates Game.isInteger_solve integer unclosed
  have same := followed.eq_of_full
  rw [same] at followed
  refine ⟨_, after, followed, kept, checks_le, ?_⟩
  intro condition returns
  simp only [searchMovesWithin, SearchM.returns_bind, SearchM.returns_expired, if_neg unasked,
    SearchM.returns_lift]
  refine ⟨next, played, result, after, ran, ?_⟩
  simp only [complete, unclosed, same, Bool.false_eq_true, if_false]
  exact returns

/-- Both loops look at the same moves, and while minimax is in time, so is alpha-beta search, with
the same best move so far. Once minimax is not, whatever alpha-beta search still finds is better. -/
theorem alphaBeta_loop_outlasts
    (computes : ∀ position, evaluator.Computes valid seeker value position) (moves : Moves Action)
    (playable : ∀ action ∈ moves.toList, ∃ next, game.play position mover action = .ok next)
    (follows : Window.full.Follows aim found found now)
    (earlyFit : valid early.memory.1) (lateFit : valid late.memory.1)
    (ahead : early.checks ≤ late.checks) (unpassed : ¬deadline.PassesBetween 0 late.checks) :
    (searchMoves game deadline (minimax game evaluator.recorded deadline seeker plies) position
      mover aim moves found).Returns late fun plain _ =>
        (searchMovesWithin game deadline (alphaBeta game evaluator.recorded deadline seeker plies)
          position mover aim moves now found).Returns early fun sharp _ =>
            aim.AsGood sharp.score plain.score := by
  induction moves generalizing now found early late with
  | done =>
      apply SearchM.returns_pure.mpr
      exact SearchM.returns_pure.mpr (.refl follows.sawFound.isDefined)
  | next action rest ih =>
      have kept := @alphaBeta_loop_asGood _ _ _ _ aim game evaluator deadline valid seeker mover
        value position plies found _ early computes (.next action rest) playable now
        follows.sawFound earlyFit
      simp only [Moves.toList_next, List.forall_mem_cons] at playable
      rcases playable.1 with ⟨next, played⟩
      simp only [searchMoves, SearchM.returns_bind, SearchM.returns_expired]
      split
      · exact SearchM.returns_pure.mpr kept
      · rename_i unasked
        simp only [SearchM.returns_bind, SearchM.returns_lift]
        refine ⟨next, played, ?_⟩
        have searched := @minimax_pursues _ _ _ _ game evaluator valid seeker value next plies _
          computes deadline { late with checks := late.checks + 1 } lateFit
        refine searched.mono ?_
        rintro result after ⟨fit, pursued⟩
        split
        · exact SearchM.returns_pure.mpr kept
        · rename_i complete
          rw [Bool.not_eq_true] at complete
          have whole : ¬deadline.CutsShort late.checks (.ask :: game.agenda plies next) := by
            rw [Deadline.cutsShort_ask, ← pursued.truncated_iff, complete]
            simp [unasked]
          have checks_eq : after.checks = late.checks + 1 + asks (game.agenda plies next) :=
            (pursued.whole complete).1
          have inTime : ¬deadline.PassesBetween 0 after.checks := by
            rw [checks_eq, Nat.add_assoc, Nat.add_comm 1, ← asks_ask]
            exact Deadline.not_passesBetween_of_whole unpassed whole
          rcases pursued.result_eq complete with rfl
          have earlyInTime : ¬deadline.PassesBetween 0
              (early.checks + 1 + asks (game.agenda plies next)) := by
            intro passed
            exact inTime (passed.mono le_rfl (by omega))
          rcases @alphaBeta_loop_step _ _ _ _ aim game evaluator deadline valid seeker mover value
            position next plies now found _ early action rest computes played follows earlyFit
            earlyInTime with ⟨narrowed, earlyAfter, followed, earlyKept, checks_le, step⟩
          refine (ih () playable.2 followed earlyKept fit (by omega) inTime).mono ?_
          intro plain _ outlasts
          exact step _ outlasts

theorem minimax_loop_answers {effort : Effort (Memory × Trail Position)}
    (computes : ∀ position, evaluator.Computes valid seeker value position)
    (movable : game.successors position mover ≠ []) (aim : Aim) (fit : valid effort.memory.1) :
    (searchMoves game deadline (minimax game evaluator.recorded deadline seeker plies) position
      mover aim (game.legal position mover) (.start aim.baseline)).Returns effort
        fun best _ => (best.truncated || best.hasAction) = true := by
  have pursues := @searchMoves_pursues _ _ _ _ game valid mover position aim
    (fun deadline => minimax game evaluator.recorded deadline seeker plies) (game.agenda plies)
    (game.solve value seeker plies) (fun _ => minimax_pursues computes)
    (game.legal position mover) (fun _ => Game.play_of_mem_legal) (.start aim.baseline) rfl
  have found := Tracker.holdsInteger_bestOf aim
    (fun next => @Game.isInteger_solve _ _ _ _ game seeker value next plies) movable
  refine (pursues deadline effort fit).mono ?_
  rintro best _ ⟨-, pursued⟩
  exact pursued.answered found.hasAction

theorem alphaBeta_loop_answers {effort : Effort (Memory × Trail Position)}
    (computes : ∀ position, evaluator.Computes valid seeker value position)
    (movable : game.successors position mover ≠ []) (window : Window) (aim : Aim)
    (fit : valid effort.memory.1) :
    (searchMovesWithin game deadline (alphaBeta game evaluator.recorded deadline seeker plies)
      position mover aim (game.legal position mover) window (.start aim.baseline)).Returns effort
        fun best _ => (best.truncated || best.hasAction) = true := by
  have pursues := @searchMovesWithin_pursues _ _ _ _ game valid mover position aim
    (fun deadline => alphaBeta game evaluator.recorded deadline seeker plies)
    (game.prune value seeker plies) (fun _ _ => alphaBeta_pursues computes)
    (game.legal position mover) (fun _ => Game.play_of_mem_legal) window (.start aim.baseline) rfl
  have found := @Journey.holdsInteger_prune_of_ne_nil _ _ (game.prune value seeker plies) aim
    (game.successors position mover) window (.start aim.baseline)
    (fun _ _ => Game.isInteger_prune) (.inl rfl) movable
  refine (pursues deadline effort fit).mono ?_
  rintro best _ ⟨-, pursued⟩
  exact pursued.answered found.hasAction

/-- Under every deadline, alpha-beta search of a position comes to a score that is at least as good
for the player to move as that of minimax. -/
theorem alphaBeta_outlasts
    (computes : ∀ position, evaluator.Computes valid seeker value position)
    (earlyFit : valid early.memory.1) (lateFit : valid late.memory.1)
    (ahead : early.checks ≤ late.checks) (unpassed : ¬deadline.PassesBetween 0 late.checks) :
    (minimax game evaluator.recorded deadline seeker plies position).Returns late fun plain _ =>
      (alphaBeta game evaluator.recorded deadline seeker plies .full position).Returns early
        fun sharp _ => ∀ mover, game.status position = .turn mover →
          (Aim.ofMover seeker mover).AsGood sharp.score plain.score := by
  by_cases leaf : game.IsLeaf plies position
  · have scores {effort : Effort (Memory × Trail Position)} (fit : valid effort.memory.1) :=
      @scoreLeaf_returns _ _ _ Action _ _ seeker value position (computes position).recorded effort
        fit
    rw [minimax_of_isLeaf leaf, alphaBeta_of_isLeaf leaf]
    refine (scores lateFit).mono ?_
    rintro _ _ ⟨-, rfl⟩
    refine (scores earlyFit).mono ?_
    rintro _ _ ⟨-, rfl⟩ mover turn
    exact .refl (Number.isDefined_int _)
  · rcases plies with _ | plies
    · exact absurd (.inl rfl) leaf
    rcases Game.exists_turn_of_not_isLeaf leaf with ⟨mover, turn, movable⟩
    have outlasts := @alphaBeta_loop_outlasts _ _ _ _ _ game evaluator deadline valid seeker mover
      value position plies _ _ _ early late computes (game.legal position mover)
      (fun _ => Game.play_of_mem_legal)
      (Window.follows_start Window.isOpen_full (Aim.ofMover seeker mover)) earlyFit lateFit ahead
      unpassed
    simp only [minimax, alphaBeta, turn]
    apply SearchM.Returns.settle
    refine ((minimax_loop_answers computes movable _ lateFit).and outlasts).mono ?_
    rintro plain _ ⟨answered, outlasts⟩
    refine ⟨answered, ?_⟩
    apply SearchM.Returns.settle
    refine ((alphaBeta_loop_answers computes movable _ _ earlyFit).and outlasts).mono ?_
    rintro sharp _ ⟨answered, better⟩
    refine ⟨answered, ?_⟩
    rintro _ ⟨⟩
    exact better

/-- Pruning only saves work. Without a deadline, alpha-beta search scores some of the positions that
minimax scores, in the same order, and asks no more often. Under the same deadline it is cut short
only if minimax is, and if the seeker is to move, its score is no smaller. -/
theorem alphaBeta_run_thrifty {memory : Memory} {depth : Int} (limited : 0 ≤ depth)
    (computes : ∀ position, evaluator.Computes valid seeker value position) (fit : valid memory) :
    ((TreeMethod.minimax.run game evaluator.recorded .never depth seeker position).Returns
      (.start (memory, ⟨[], 0⟩)) fun _ plainAfter =>
        (TreeMethod.alphaBeta.run game evaluator.recorded .never depth seeker position).Returns
          (.start (memory, ⟨[], 0⟩)) fun _ sharpAfter =>
            sharpAfter.memory.2.scored.reverse.Sublist plainAfter.memory.2.scored.reverse ∧
              sharpAfter.checks ≤ plainAfter.checks) ∧
    ∀ deadline : Deadline,
      (TreeMethod.minimax.run game evaluator.recorded deadline depth seeker position).Returns
        (.start (memory, ⟨[], 0⟩)) fun plain _ =>
          (TreeMethod.alphaBeta.run game evaluator.recorded deadline depth seeker position).Returns
            (.start (memory, ⟨[], 0⟩)) fun sharp _ =>
              (sharp.truncated = true → plain.truncated = true) ∧
                (game.status position = .turn seeker →
                  plain.score.atMost sharp.score = true) := by
  have plainly := @minimax_pursues _ _ _ _ game evaluator valid seeker value position depth.toNat _
    computes
  have sharply := @alphaBeta_pursues _ _ _ _ game evaluator valid seeker value position depth.toNat
    .full _ computes
  have spends := @Game.spends_prune _ _ _ _ game value seeker depth.toNat .full position
  simp only [TreeMethod.run_of_limited limited, TreeMethod.search]
  constructor
  · refine (plainly .never _ fit).mono ?_
    rintro _ plainAfter ⟨-, plain⟩
    refine (sharply .never _ fit).mono ?_
    rintro _ sharpAfter ⟨-, sharp⟩
    rcases plain.whole_of_never Deadline.never_neverPasses with ⟨-, plain_checks, plain_scored⟩
    rcases sharp.whole_of_never Deadline.never_neverPasses with ⟨-, sharp_checks, sharp_scored⟩
    rw [plain_checks, sharp_checks, plain_scored, sharp_scored]
    exact ⟨spends.sublist.filterMap Event.position?, spends.asks_le⟩
  · intro deadline
    have outlasts := @alphaBeta_outlasts _ _ _ _ game evaluator deadline valid seeker value position
      depth.toNat _ (.start (memory, ⟨[], 0⟩)) (.start (memory, ⟨[], 0⟩)) computes fit fit le_rfl
      Deadline.not_passesBetween_self
    refine ((plainly deadline _ fit).and outlasts).mono ?_
    rintro plain _ ⟨⟨-, plainPursued⟩, outlasts⟩
    refine ((sharply deadline _ fit).and outlasts).mono ?_
    rintro sharp _ ⟨⟨-, sharpPursued⟩, better⟩
    constructor
    · rw [sharpPursued.truncated_iff, plainPursued.truncated_iff]
      intro cuts
      exact cuts.mono le_rfl (Nat.add_le_add_left spends.asks_le _)
    · intro turn
      have asGood := better seeker turn
      rw [Aim.ofMover, if_pos rfl] at asGood
      exact asGood.atMost

/-- Three plies in Nim. -/
theorem alphaBeta_run_thrifty_nim :
    let start : Nim.Position := ⟨[2, 1], .one, none, false, by simp, by simp⟩
    let evaluator : Evaluator Unit Nim.Position Nim.Player :=
      .ofFunction fun position side => .int (Nim.winLossScore position side)
    (0 : Int) ≤ 3 ∧
      (∀ position, evaluator.Computes (fun _ => True) .one (Nim.winLossScore · .one) position) ∧
      ((TreeMethod.minimax.run Nim.game evaluator.recorded .never 3 .one start).Returns
        (.start ((), ⟨[], 0⟩)) fun _ plainAfter =>
          (TreeMethod.alphaBeta.run Nim.game evaluator.recorded .never 3 .one start).Returns
            (.start ((), ⟨[], 0⟩)) fun _ sharpAfter =>
              sharpAfter.memory.2.scored.reverse.Sublist plainAfter.memory.2.scored.reverse ∧
                sharpAfter.checks ≤ plainAfter.checks) ∧
      ∀ deadline : Deadline,
        (TreeMethod.minimax.run Nim.game evaluator.recorded deadline 3 .one start).Returns
          (.start ((), ⟨[], 0⟩)) fun plain _ =>
            (TreeMethod.alphaBeta.run Nim.game evaluator.recorded deadline 3 .one start).Returns
              (.start ((), ⟨[], 0⟩)) fun sharp _ =>
                (sharp.truncated = true → plain.truncated = true) ∧
                  (Nim.game.status start = .turn .one →
                    plain.score.atMost sharp.score = true) := by
  intro start evaluator
  have computes := Evaluator.computes_ofFunction Nim.winLossScore .one
  exact ⟨by decide, computes, alphaBeta_run_thrifty (by decide) computes trivial⟩

end GameSearch
