import GameSearch.Proofs.Gauge.Opposite
import GameSearch.Proofs.Number.Opposite
import GameSearch.Proofs.Search.Best
import GameSearch.Proofs.Search.Correspondence
import GameSearch.Proofs.Search.Parallel

/-!
# The perspective of a tree search

Seeking the greatest score and seeking the least one are mirror images of each other. In a game of
two players whose scores are opposite, it does not matter for whom a tree is searched: the same
positions are scored, the same moves are cut off, and the results differ in the sign of their scores
alone.
-/

namespace GameSearch

variable {Memory Position Player Action : Type} {game : Game Position Player Action}
  {evaluator : Evaluator Memory Position Player} {deadline : Deadline} {valid : Memory → Prop}
  {first second mover : Player} {position : Position} {plies : Nat} {aim : Aim}

theorem Aim.baseline_opposite : aim.opposite.baseline = -aim.baseline := by
  cases aim with
  | greatest => exact Number.neg_below.symm
  | least => exact Number.neg_above.symm

theorem Aim.prefers_opposite (score other : Number) :
    aim.opposite.prefers (-score) (-other) = aim.prefers score other := by
  cases aim with
  | greatest => exact Number.less_neg_neg score other
  | least => exact Number.less_neg_neg other score

theorem Game.IsBetween.ofMover_eq [DecidableEq Player] (between : game.IsBetween first second)
    (turn : game.status position = .turn mover) :
    Aim.ofMover second mover = (Aim.ofMover first mover).opposite := by
  rcases between.mover position mover turn with rfl | rfl
  · rw [Aim.ofMover, Aim.ofMover, if_neg between.distinct, if_pos rfl]
    rfl
  · rw [Aim.ofMover, Aim.ofMover, if_pos rfl, if_neg between.distinct.symm]
    rfl

theorem Evaluator.Opposes.recorded (opposes : evaluator.Opposes valid first second) :
    evaluator.recorded.Opposes (fun memory => valid memory.1) first second := by
  refine ⟨fun memory => opposes.startSearch memory.1, ?_⟩
  intro position memory fit
  rcases opposes.score position memory.1 fit with ⟨score, after, scored, otherScored, kept⟩
  refine ⟨score, (after, { memory.2 with scored := position :: memory.2.scored }), ?_, ?_, kept⟩
  · simp only [Evaluator.recorded, scored]
  · simp only [Evaluator.recorded, otherScored]

namespace Tracker

/-- The same tracker with the opposite score. -/
def mirrored (tracker : Tracker Action) : Tracker Action :=
  { tracker with score := -tracker.score }

/-- Whether two trackers differ in the sign of their scores alone. -/
def Mirrors (tracker other : Tracker Action) : Prop := other = tracker.mirrored

end Tracker

/-- The opposites of scores compare like the scores if the aims are exchanged. -/
theorem Number.correspondence_neg :
    Correspondence Aim.opposite fun score counterpart => counterpart = -score where
  opposite _ := rfl
  baseline _ := Aim.baseline_opposite
  prefers := by
    rintro aim score rival _ _ rfl rfl
    exact Aim.prefers_opposite score rival
  same := by
    rintro score rival _ _ rfl rfl
    rw [same_neg_neg, same_comm]

theorem Tracker.mirrors_of_corresponds {tracker other : Tracker Action}
    (corresponds : tracker.Corresponds (fun score counterpart => counterpart = -score) other) :
    tracker.Mirrors other := by
  rcases corresponds with ⟨score_eq, action_eq, truncated_eq⟩
  cases other
  cases score_eq
  cases action_eq
  cases truncated_eq
  rfl

theorem Evaluator.Opposes.scoresAlike (opposes : evaluator.Opposes valid first second) :
    evaluator.ScoresAlike evaluator (fun memory other => memory = other ∧ valid memory)
      (fun score counterpart => counterpart = -score) first second := by
  rintro position memory _ ⟨rfl, fit⟩
  rcases opposes.score position memory fit with ⟨score, after, scored, otherScored, kept⟩
  exact ⟨.int score, .int (-score), after, after, scored, otherScored, ⟨rfl, kept⟩, rfl⟩

theorem TreeMethod.search_inStep [DecidableEq Player] (method : TreeMethod)
    (between : game.IsBetween first second) (opposes : evaluator.Opposes valid first second) :
    (method.search game evaluator deadline first plies position).InStep
      (method.search game evaluator deadline second plies position) valid Tracker.Mirrors := by
  have alongside : (method.search game evaluator deadline first plies position).Alongside
      (method.search game evaluator deadline second plies position) _ _ :=
    method.search_alongside Number.correspondence_neg opposes.scoresAlike
      fun _ _ turn => between.ofMover_eq turn
  exact (SearchM.inStep_iff.mpr alongside).mono fun _ _ => Tracker.mirrors_of_corresponds

variable [DecidableEq Player]

/-- A search for one player and the same search for the other one come to opposite scores and agree
in everything else. They ask the deadline equally often and score the same positions in the same
order. -/
theorem TreeMethod.run_opposite (method : TreeMethod) (between : game.IsBetween first second)
    (opposes : evaluator.Opposes valid first second) {depth : Int} (limited : 0 ≤ depth)
    {effort : Effort (Memory × Trail Position)} (fit : valid effort.memory.1) :
    ∃ best other after,
      (method.run game evaluator.recorded deadline depth first position).Yields effort best after ∧
      (method.run game evaluator.recorded deadline depth second position).Yields effort other
        after ∧
      other.score = -best.score ∧ other.hasAction = best.hasAction ∧
      other.action = best.action ∧ other.truncated = best.truncated := by
  rw [run_of_limited limited, run_of_limited limited]
  rcases method.search_inStep between opposes.recorded effort fit with
    ⟨best, _, after, ran, otherRan, -, rfl⟩
  exact ⟨best, best.mirrored, after, ran, otherRan, rfl, rfl, rfl, rfl⟩

/-- Three plies of Nim, cut short at the fourth check. -/
theorem TreeMethod.run_opposite_nim :
    let start : Nim.Position := ⟨[2, 1], .one, none, false, by simp, by simp⟩
    let effort : Effort (Gauge Nim.Position Nim.Player × Trail Nim.Position) :=
      .start (Nim.nimSum, ⟨[], 0⟩)
    Nim.game.IsBetween .one .two ∧
      (Gauge.evaluator Nim.game).Opposes (Gauge.ZeroSum .one .two) .one .two ∧ (0 : Int) ≤ 3 ∧
      Nim.nimSum.ZeroSum .one .two ∧
      ∃ best other after,
        (TreeMethod.alphaBeta.run Nim.game (Gauge.evaluator Nim.game).recorded (.atCheck 4) 3 .one
          start).Yields effort best after ∧
        (TreeMethod.alphaBeta.run Nim.game (Gauge.evaluator Nim.game).recorded (.atCheck 4) 3 .two
          start).Yields effort other after ∧
        other.score = -best.score ∧ other.hasAction = best.hasAction ∧
        other.action = best.action ∧ other.truncated = best.truncated := by
  intro start effort
  exact ⟨Nim.isBetween, Nim.opposes_zeroSum, by decide, Nim.zeroSum_nimSum,
    TreeMethod.run_opposite .alphaBeta Nim.isBetween Nim.opposes_zeroSum (by decide)
      Nim.zeroSum_nimSum⟩

end GameSearch
