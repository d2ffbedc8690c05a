import GameSearch.Nim.Evaluators
import GameSearch.Proofs.Search.Completion
import GameSearch.Proofs.Search.Window
import GameSearch.Search.DepthLimited

/-!
# Pruning

Alpha-beta search approximates the exact result inside every open window. The window of a search
from the root is the whole line, where every integer lies strictly inside, so pruning changes
neither the score nor the action that minimax finds.
-/

namespace GameSearch

variable {Memory Position Player Action : Type} {game : Game Position Player Action}
  {evaluator : Evaluator Memory Position Player} {deadline : Deadline} {valid : Memory → Prop}
  {seeker mover : Player} {value : Position → Int} {position : Position} {plies : Nat}
  {window now : Window} {aim : Aim}

theorem searchMovesWithin_settles (deadline : Deadline)
    (child : Window → Position → SearchM Memory (Tracker Action))
    (exactChild : Position → Tracker Action)
    (integers : ∀ next, (exactChild next).score.IsInteger)
    (searched : ∀ inner action next, inner.IsOpen → game.play position mover action = .ok next →
      (child inner next).Completes deadline valid fun result =>
        inner.Approximates (exactChild next) result ∧ result.score.IsInteger)
    (moves : Moves Action)
    (playable : ∀ action ∈ moves.toList, ∃ next, game.play position mover action = .ok next)
    {exact found : Tracker Action} (follows : window.Follows aim exact found now) :
    (searchMovesWithin game deadline child position mover aim moves now found).Settles deadline
      valid
      (fun result => ∃ count < moves.toList.length, ∃ reached inner,
        window.Follows aim (exact.insertAll aim
          ((game.outcomes position mover (moves.toList.take count)).map
            fun entry => (entry.1, (exactChild entry.2).score))) reached inner ∧
          result = reached.truncate)
      fun result => result.SawIntegers aim ∧
        ∃ final, final = exact.insertAll aim ((game.outcomes position mover moves.toList).map
            fun entry => (entry.1, (exactChild entry.2).score)) ∧
          window.Approximates final result ∧ result.hasAction = final.hasAction := by
  induction moves generalizing exact found now with
  | done =>
      apply SearchM.settles_pure follows.sawFound.not_truncated
      exact ⟨follows.sawFound, exact, rfl, follows.approximates, follows.hasAction_eq⟩
  | next action rest ih =>
      simp only [Moves.toList_next, List.forall_mem_cons] at playable
      rcases playable.1 with ⟨next, played⟩
      refine SearchM.Settles.child played (searched now action next follows.isOpen played)
        ⟨0, Nat.zero_lt_succ _, found, now, follows, rfl⟩ ?_
      rintro result ⟨child, integer⟩
      have holdsExact := follows.sawExact.insert action (integers next)
      have holdsFound := follows.sawFound.insert action integer
      have others : ∀ entry ∈ (game.outcomes position mover (rest ()).toList).map
          fun entry => (entry.1, (exactChild entry.2).score), entry.2.IsInteger := by
        simp only [List.forall_mem_map]
        exact fun entry _ => integers entry.2
      rw [Moves.toList_next, Game.outcomes_cons played, List.map_cons, Tracker.insertAll_cons]
      dsimp only
      split
      · -- The window closes, and no move that is left can change the outcome.
        rename_i closed
        have saw : Tracker.SawIntegers _ aim := .inr holdsFound
        have holdsFinal := holdsExact.insertAll aim others
        apply SearchM.settles_pure saw.not_truncated
        refine ⟨saw, _, rfl, ?_, ?_⟩
        · exact follows.approximates_of_closed child (integers next) integer closed
            (Tracker.SawIntegers.rank_le_insertAll (.inr holdsExact) others)
        · rw [holdsFound.hasAction, holdsFinal.hasAction]
      · rename_i unclosed
        have still : window.Follows aim (exact.insert aim action (exactChild next).score)
            (found.insert aim action result.score) (now.narrow result.score aim) :=
          follows.insert child (integers next) integer (by simpa using unclosed)
        refine (ih () playable.2 still).mono ?_ (fun _ => id)
        rintro final ⟨count, fewer, reached, inner, ahead, rfl⟩
        refine ⟨count + 1, Nat.succ_lt_succ fewer, reached, inner, ?_, rfl⟩
        rwa [List.take_succ_cons, Game.outcomes_cons played, List.map_cons,
          Tracker.insertAll_cons]

/-- Where no move leads on, it makes no difference to refuse positions from which one does. -/
theorem Evaluator.Computes.onlyAtEnds (computes : evaluator.Computes valid seeker value position)
    (ended : ∀ player, (game.legal position player).toList = []) :
    (evaluator.onlyAtEnds game).Computes valid seeker value position := by
  intro memory fit
  have scored : (evaluator.onlyAtEnds game).score position seeker memory =
      evaluator.score position seeker memory := by
    simp only [Evaluator.onlyAtEnds]
    rcases game.status position with mover | winner
    · have stuck : game.firstLegal position mover = none :=
        Game.firstLegal_eq_none.mpr (ended mover)
      simp only [stuck]
    · rfl
  rw [scored]
  exact computes memory fit

variable [DecidableEq Player]

/-- One ply of alpha-beta search over children that complete: cut short, it follows the best of the
first few moves, by their exact results. -/
theorem alphaBeta_settles_of_turn (isOpen : window.IsOpen)
    (turn : game.status position = .turn mover)
    (childCompletes : ∀ inner action next, inner.IsOpen →
      game.play position mover action = .ok next →
      (alphaBeta game evaluator deadline seeker plies inner next).Completes deadline valid
        fun result => inner.Approximates (game.solve value seeker plies next) result ∧
          result.score.IsInteger)
    (computes : (∀ player, (game.legal position player).toList = []) →
      evaluator.Computes valid seeker value position) :
    (alphaBeta game evaluator deadline seeker (plies + 1) window position).Settles deadline valid
      (fun result => ∃ count < (game.legal position mover).toList.length, ∃ reached inner,
        window.Follows (Aim.ofMover seeker mover) (Tracker.bestOf (Aim.ofMover seeker mover)
          (fun next => (game.solve value seeker plies next).score)
          (game.outcomes position mover ((game.legal position mover).toList.take count)))
          reached inner ∧
        result = reached.truncate)
      fun result => window.Approximates (game.solve value seeker (plies + 1) position) result ∧
        result.score.IsInteger := by
  simp only [alphaBeta, turn]
  have searched := searchMovesWithin_settles deadline
    (alphaBeta game evaluator deadline seeker plies) (game.solve value seeker plies)
    (fun _ => Game.isInteger_solve) childCompletes
    (game.legal position mover) (fun action legal => Game.play_of_mem_legal legal)
    (Window.follows_start isOpen (Aim.ofMover seeker mover))
  refine (searched.settle value ?_).mono (fun _ => id) ?_
  · rintro best ⟨-, final, final_eq, -, hasAction_eq⟩ none
    rw [hasAction_eq] at none
    exact computes (Game.legal_eq_nil_of_bestOf turn final_eq none)
  · rintro result ⟨best, ⟨saw, final, final_eq, approximates, hasAction_eq⟩, rfl⟩
    rw [Game.solve_of_turn turn final_eq, ← hasAction_eq]
    split
    · rename_i found
      exact ⟨approximates, saw.isInteger found⟩
    · exact ⟨.refl window _, ⟨_, rfl⟩⟩

/-- Inside every open window, alpha-beta search approximates the exact result unless it is cut
short. -/
theorem alphaBeta_completes (isOpen : window.IsOpen)
    (computes : game.AtLeaves (evaluator.Computes valid seeker value) plies position) :
    (alphaBeta game evaluator deadline seeker plies window position).Completes deadline valid
      fun result => window.Approximates (game.solve value seeker plies position) result ∧
        result.score.IsInteger := by
  induction plies generalizing position window with
  | zero =>
      refine (scoreLeaf_completes computes).mono ?_
      rintro _ rfl
      exact ⟨.refl window _, ⟨_, rfl⟩⟩
  | succ plies ih =>
      rcases status : game.status position with mover | winner
      · refine (alphaBeta_settles_of_turn isOpen status ?_ computes.1).completes
        exact fun inner action next innerOpen played =>
          ih innerOpen (computes.2 mover action next played)
      · simp only [alphaBeta, status, Game.solve_of_over status]
        refine (scoreLeaf_completes (computes.1 (Game.legal_eq_nil_of_over status))).mono ?_
        rintro _ rfl
        exact ⟨.refl window _, ⟨_, rfl⟩⟩

namespace TreeMethod

/-- The whole line leaves no room for bounds: both methods find the exact result. -/
theorem search_completes (method : TreeMethod)
    (computes : game.AtLeaves (evaluator.Computes valid seeker value) plies position) :
    (method.search game evaluator deadline seeker plies position).Completes deadline valid
      fun result => result = game.solve value seeker plies position := by
  cases method with
  | minimax => exact minimax_completes computes
  | alphaBeta =>
      refine (alphaBeta_completes Window.isOpen_full computes).mono ?_
      rintro result ⟨approximates, -⟩
      exact approximates.eq_of_full Game.isInteger_solve

/-- At the root, a search of either method that is cut short holds the best of the first few moves,
by their exact results. -/
theorem search_settles_of_turn (method : TreeMethod) (turn : game.status position = .turn mover)
    (computes : ∀ position, evaluator.Computes valid seeker value position) :
    (method.search game evaluator deadline seeker (plies + 1) position).Settles deadline valid
      (fun result => ∃ count < (game.legal position mover).toList.length,
        result = (Tracker.bestOf (Aim.ofMover seeker mover)
          (fun next => (game.solve value seeker plies next).score)
          (game.outcomes position mover
            ((game.legal position mover).toList.take count))).truncate)
      fun result => result = game.solve value seeker (plies + 1) position := by
  have leaves next : game.AtLeaves (evaluator.Computes valid seeker value) plies next :=
    Game.atLeaves_of_forall computes
  cases method with
  | minimax =>
      exact minimax_settles_of_turn turn (fun _ next _ => minimax_completes (leaves next))
        fun _ => computes position
  | alphaBeta =>
      refine (alphaBeta_settles_of_turn Window.isOpen_full turn
        (fun _ _ next innerOpen _ => alphaBeta_completes innerOpen (leaves next))
        fun _ => computes position).mono ?_ ?_
      · rintro result ⟨count, fewer, reached, inner, follows, rfl⟩
        exact ⟨count, fewer, by rw [follows.eq_of_full]⟩
      · rintro result ⟨approximates, -⟩
        exact approximates.eq_of_full Game.isInteger_solve

/-- A search to a depth finds the exact result, if a search without limit comes to an end. -/
theorem run_completes (method : TreeMethod) (deadline : Deadline) {depth : Int}
    (computes : ∀ position, evaluator.Computes valid seeker value position)
    (finite : depth < 0 → game.EndsWithin (game.plies depth position) position) :
    (method.run game evaluator deadline depth seeker position).Completes deadline valid
      fun result => result = game.solve value seeker (game.plies depth position) position := by
  unfold TreeMethod.run
  split
  · rename_i unlimited
    apply method.search_completes
    exact (finite unlimited.1).mono fun leaf ended => (computes leaf).onlyAtEnds ended
  · exact method.search_completes (Game.atLeaves_of_forall computes)

end TreeMethod

/-- Pruning changes nothing: with a deadline that never passes, alpha-beta search and minimax return
the same tracker, which is not truncated. A negative depth is no limit and takes a game that ends
within the plies it stands for; `Game.endsWithin_of_height` gives this for every game of known
height. -/
theorem alphaBeta_run_eq_minimax_run {depth : Int}
    (computes : ∀ position, evaluator.Computes valid seeker value position)
    (finite : depth < 0 → game.EndsWithin (game.plies depth position) position)
    (never : deadline.NeverPasses) :
    ∃ best : Tracker Action, best.truncated = false ∧ ∀ effort, valid effort.memory →
      ((TreeMethod.minimax.run game evaluator deadline depth seeker position).run.run effort).1 =
          .ok best ∧
        ((TreeMethod.alphaBeta.run game evaluator deadline depth seeker position).run.run
          effort).1 = .ok best := by
  have finds : ∀ method : TreeMethod, ∀ effort, valid effort.memory →
      ((method.run game evaluator deadline depth seeker position).run.run effort).1 =
        .ok (game.solve value seeker (game.plies depth position) position) := by
    intro method effort fit
    have completes := method.run_completes deadline computes finite effort fit
    exact (completes.mono fun _ _ completed =>
      completed.2.holds (completed.2.finished never)).result_eq
  exact ⟨_, Game.truncated_solve, fun effort fit =>
    ⟨finds .minimax effort fit, finds .alphaBeta effort fit⟩⟩

/-- The same for misère Nim without a limit on the depth. -/
theorem alphaBeta_run_eq_minimax_run_misere :
    let start : Nim.Position := ⟨[2, 1], .one, none, true, by simp, by simp⟩
    (∀ position, (Gauge.evaluator Nim.game).Computes (· = Nim.winLoss) .two
        (Nim.winLossScore · .two) position) ∧
      Nim.game.EndsWithin (Nim.game.plies (-1) start) start ∧
      ∃ best : Tracker Nim.Action, best.truncated = false ∧ ∀ effort, effort.memory = Nim.winLoss →
        ((TreeMethod.minimax.run Nim.game (Gauge.evaluator Nim.game) .never (-1) .two start).run.run
            effort).1 = .ok best ∧
          ((TreeMethod.alphaBeta.run Nim.game (Gauge.evaluator Nim.game) .never (-1) .two
            start).run.run effort).1 = .ok best := by
  intro start
  have computes : ∀ position, (Gauge.evaluator Nim.game).Computes (· = Nim.winLoss) .two
      (Nim.winLossScore · .two) position := by
    rintro position _ rfl
    exact ⟨_, rfl, rfl⟩
  have finite : Nim.game.EndsWithin (Nim.game.plies (-1) start) start :=
    Game.endsWithin_of_height rfl
  exact ⟨computes, finite,
    alphaBeta_run_eq_minimax_run computes (fun _ => finite) Deadline.never_neverPasses⟩

end GameSearch
