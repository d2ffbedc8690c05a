import GameSearch.Proofs.Search.Completion
import GameSearch.Search.SingleLevel

/-!
# Greedy search

Greedy search picks the first of the best positions that one action leads to. It asks no deadline,
so nothing cuts it short.
-/

namespace GameSearch

variable {Memory Position Player Action : Type} {game : Game Position Player Action}
  {evaluator : Evaluator Memory Position Player} {valid : Memory → Prop} {player : Player}
  {value : Position → Int} {position : Position} {effort : Effort Memory}

theorem scoreMoves_returns (moves : Moves Action)
    (computes : ∀ action next, game.play position player action = .ok next →
      evaluator.Computes valid player value next)
    (playable : ∀ action ∈ moves.toList, ∃ next, game.play position player action = .ok next)
    (fit : valid effort.memory) (best : Tracker Action) :
    (scoreMoves game evaluator position player moves best).Returns effort fun result after =>
      valid after.memory ∧ result = best.insertAll .greatest
        ((game.outcomes position player moves.toList).map fun entry =>
          (entry.1, .int (value entry.2))) := by
  induction moves generalizing best effort with
  | done => exact SearchM.returns_pure.mpr ⟨fit, rfl⟩
  | next action rest ih =>
      simp only [Moves.toList_next, List.forall_mem_cons] at playable
      rcases playable with ⟨⟨next, played⟩, playable⟩
      rcases computes action next played effort.memory fit with ⟨after, scored, kept⟩
      simp only [scoreMoves, SearchM.returns_bind, SearchM.returns_lift, SearchM.returns_evaluate,
        Moves.toList_next, Game.outcomes_cons played]
      exact ⟨next, played, .int (value next), after, scored, ih () playable kept _⟩

/-- With an evaluator that computes integers, greedy search picks the first best action. -/
theorem pickGreedy_returns
    (computes : ∀ action next, game.play position player action = .ok next →
      evaluator.Computes valid player value next)
    (legal : (game.legal position player).toList ≠ []) (fit : valid effort.memory) :
    (pickGreedy game evaluator position player).Returns effort fun action after =>
      valid after.memory ∧ (Tracker.bestOf .greatest (fun next => .int (value next))
        (game.successors position player)).action = some action := by
  have scored := scoreMoves_returns (game.legal position player) computes
    (fun _ => Game.play_of_mem_legal) fit (.start .below)
  have integers : ∀ next, (Number.int (value next)).IsInteger := fun next => ⟨value next, rfl⟩
  rcases Tracker.holdsInteger_bestOf .greatest integers (mt Game.successors_eq_nil.mp legal) with
    ⟨score, action, best_eq⟩
  rw [pickGreedy, SearchM.returns_bind]
  refine scored.mono ?_
  rintro _ after ⟨kept, rfl⟩
  refine SearchM.returns_lift.mpr ⟨action, ?_, kept, by rw [best_eq]⟩
  exact congrArg Tracker.action? best_eq

end GameSearch
