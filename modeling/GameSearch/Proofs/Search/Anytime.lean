import GameSearch.Proofs.Search.Interruption
import GameSearch.Proofs.Search.Pruning
import GameSearch.Proofs.Search.Worth

/-!
# Anytime search

Whenever its deadline passes, a search from a running position has an answer that can be trusted: it
is the first of the best of some of the first moves, and their values are exact. A child whose own
search was cut short is not among them, and neither are the bounds that alpha-beta search leaves
where it prunes.
-/

namespace GameSearch

variable {Memory Position Player Action : Type}
  {game : Game Position Player Action} {evaluator : Evaluator Memory Position Player}
  {valid : Memory → Prop} {seeker mover : Player} {value : Position → Int} {position : Position}

/-- Whether a tracker holds the first of the best among the positions that the first few of a
player's actions lead to, but not all of them. -/
def Tracker.HoldsPrefixBest (game : Game Position Player Action) (aim : Aim)
    (worth : Position → Int) (position : Position) (mover : Player) (tracker : Tracker Action) :
    Prop :=
  ∃ count < (game.legal position mover).toList.length, ∃ reached : List (Action × Position),
    reached.map Prod.fst = (game.legal position mover).toList.take count ∧
      (∀ entry ∈ reached, game.play position mover entry.1 = .ok entry.2) ∧
      tracker.HoldsFirstBest aim worth reached

theorem Tracker.holdsPrefixBest_bestOf (aim : Aim) (worth : Position → Int) {count : Nat}
    (fewer : count < (game.legal position mover).toList.length) :
    (Tracker.bestOf aim (fun next => .int (worth next)) (game.outcomes position mover
      ((game.legal position mover).toList.take count))).truncate.HoldsPrefixBest game aim worth
        position mover := by
  refine ⟨count, fewer, game.outcomes position mover
    ((game.legal position mover).toList.take count), Game.map_fst_outcomes ?_, ?_, ?_⟩
  · intro action first
    exact Game.play_of_mem_legal (List.mem_of_mem_take first)
  · intro entry reached
    exact (Game.mem_outcomes.mp reached).2
  · exact (Tracker.holdsFirstBest_bestOf aim worth _).truncate

variable [DecidableEq Player]

/-- A search from a running position is exact at any time. If its deadline does not pass, it is the
search without a deadline; else it is truncated, and its result is the first of the best of some of
the first moves, by their minimax values. -/
theorem TreeMethod.run_anytime (method : TreeMethod) (deadline : Deadline) {depth : Int}
    (deep : 1 ≤ depth) (running : game.status position = .turn mover)
    (computes : ∀ position, evaluator.Computes valid seeker value position)
    {effort : Effort Memory} (fit : valid effort.memory) :
    (method.run game evaluator deadline depth seeker position).Returns effort fun result after =>
      (¬deadline.PassesBetween effort.checks after.checks → result.truncated = false ∧
        (method.run game evaluator .never depth seeker position).Yields effort result after) ∧
      (deadline.PassesBetween effort.checks after.checks → result.truncated = true ∧
        result.HoldsPrefixBest game (Aim.ofMover seeker mover)
          (game.worth value seeker (depth - 1).toNat) position mover) := by
  have plies_eq : game.plies depth position = (depth - 1).toNat + 1 := by
    rw [Game.plies, if_pos (by omega)]
    omega
  have limited : ¬(depth < 0 ∧ game.height position = none) := by omega
  have run_eq : method.run game evaluator deadline depth seeker position =
      method.search game evaluator deadline seeker ((depth - 1).toNat + 1) position := by
    rw [TreeMethod.run, if_neg limited, plies_eq]
  have settles : (method.search game evaluator deadline seeker ((depth - 1).toNat + 1)
      position).Settles deadline valid _ _ := method.search_settles_of_turn running computes
  rw [← run_eq] at settles
  rcases settles effort fit with ⟨result, after, ran, -, settled⟩
  have heeded := method.heeds_run deadline effort result after ran
  refine ⟨result, after, ran, ?_, ?_⟩
  · intro unpassed
    have complete : result.truncated = false := by
      rwa [← heeded.truncated_iff, Bool.not_eq_true] at unpassed
    exact ⟨complete, heeded.undisturbed complete⟩
  · intro passed
    have truncated := heeded.truncated_iff.mpr passed
    rcases settled.cut truncated with ⟨count, fewer, result_eq⟩
    simp only [Game.score_solve] at result_eq
    rw [result_eq]
    exact ⟨rfl, Tracker.holdsPrefixBest_bestOf _ _ fewer⟩

/-- Two plies of alpha-beta search in Nim, for a deadline that passes at the fourth question. -/
theorem TreeMethod.run_anytime_nim :
    let start : Nim.Position := ⟨[2, 1], .one, none, false, by simp, by simp⟩
    let evaluator : Evaluator Unit Nim.Position Nim.Player :=
      .ofFunction fun position side => .int (Nim.winLossScore position side)
    (1 : Int) ≤ 2 ∧ Nim.game.status start = .turn .one ∧
      (∀ position, evaluator.Computes (fun _ => True) .two (Nim.winLossScore · .two) position) ∧
      (TreeMethod.alphaBeta.run Nim.game evaluator (.atCheck 4) 2 .two start).Returns (.start ())
        fun result after =>
          (¬(Deadline.atCheck 4).PassesBetween 0 after.checks → result.truncated = false ∧
            (TreeMethod.alphaBeta.run Nim.game evaluator .never 2 .two start).Yields (.start ())
              result after) ∧
          ((Deadline.atCheck 4).PassesBetween 0 after.checks → result.truncated = true ∧
            result.HoldsPrefixBest Nim.game .least (Nim.game.worth (Nim.winLossScore · .two) .two 1)
              start .one) := by
  intro start evaluator
  have running : Nim.game.status start = .turn .one := rfl
  have computes := Evaluator.computes_ofFunction Nim.winLossScore .two
  exact ⟨by decide, running, computes,
    TreeMethod.run_anytime .alphaBeta (.atCheck 4) (by decide) running computes trivial⟩

end GameSearch
