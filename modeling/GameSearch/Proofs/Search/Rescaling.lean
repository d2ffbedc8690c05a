import GameSearch.Proofs.Nim.Solving
import GameSearch.Proofs.Search.Correspondence

/-!
# Rescaled evaluations

A weighted sum of an evaluation and a constant measures the same thing with another unit and from
another zero. Searches compare scores with each other and with the infinities, and as long as the
weight is positive no comparison changes: the score of a bound moves with the scores, and infinity
stays where it is. So nothing that is decided changes.
-/

namespace GameSearch

/-- Whether the second score is the first one multiplied by a weight and shifted by an offset.
Infinite scores stay as they are. -/
inductive Number.Rescales (weight offset : Int) : Number → Number → Prop where
  | int (score : Int) : Rescales weight offset (.int score) (.int (weight * score + offset))
  | below : Rescales weight offset .below .below
  | above : Rescales weight offset .above .above

namespace Number.Rescales

variable {weight offset : Int} {score rival counterpart otherRival : Number}

theorem less_eq (positive : 1 ≤ weight) (first : Rescales weight offset score counterpart)
    (second : Rescales weight offset rival otherRival) :
    counterpart.less otherRival = score.less rival := by
  have monotone (left right : Int) :
      weight * left + offset < weight * right + offset ↔ left < right := by
    rw [add_lt_add_iff_right, mul_lt_mul_iff_right₀ (by omega)]
  cases first with
  | int score =>
      cases second with
      | int rival => rw [less_int_int, less_int_int, decide_eq_decide, monotone]
      | below | above => simp [less_eq_extent, Extent.less]
  | below | above => cases second <;> simp [less_eq_extent, Extent.less]

theorem same_eq (positive : 1 ≤ weight) (first : Rescales weight offset score counterpart)
    (second : Rescales weight offset rival otherRival) :
    counterpart.same otherRival = score.same rival := by
  have injective (left right : Int) :
      weight * left + offset = weight * right + offset ↔ left = right := by
    rw [add_left_inj, mul_right_inj' (by omega)]
  rw [Bool.eq_iff_iff]
  cases first with
  | int score =>
      cases second with
      | int rival => simpa only [same, beq_iff_eq] using injective score rival
      | below | above => simp [same_eq_extent]
  | below | above => cases second <;> simp [same_eq_extent]

end Number.Rescales

/-- A positive weight and any offset keep the order of the scores. -/
theorem Number.correspondence_rescales {weight : Int} (positive : 1 ≤ weight) (offset : Int) :
    Correspondence id (Number.Rescales weight offset) where
  opposite _ := rfl
  baseline aim := by
    cases aim with
    | greatest => exact .below
    | least => exact .above
  prefers aim _ _ _ _ first second := by
    cases aim with
    | greatest => exact second.less_eq positive first
    | least => exact first.less_eq positive second
  same _ _ _ _ first second := first.same_eq positive second

section

variable {Position Player Action : Type} [DecidableEq Player] [Worded Player]
  {game : Game Position Player Action} {deadline : Deadline}
  {valid : Gauge Position Player → Prop} {part : Gauge Position Player} {value : Position → Int}
  {player : Player} {position : Position} {weight offset : Int} {title : String}

namespace Gauge

/-- The weighted sum of a gauge and a constant. -/
def rescaled (part : Gauge Position Player) (weight offset : Int) (title : String) :
    Gauge Position Player :=
  .plus (.plus .empty (.int weight) part) 1 (.rule title fun _ _ => .ok (.int offset))

theorem score_rescaled {after : Gauge Position Player} {score : Int}
    (scored : part.score game position player = (.ok (.int score), after)) :
    (part.rescaled weight offset title).score game position player =
      (.ok (.int (weight * score + offset)), after.rescaled weight offset title) := by
  have weighted : (do (0 : Number).plus (← (Number.int weight).times (.int score))) =
      .ok (.int (weight * score)) := by
    change Except.ok (Number.int (0 + weight * score)) = _
    rw [zero_add]
  have total : (do (Number.int (weight * score)).plus (← (1 : Number).times (.int offset))) =
      .ok (.int (weight * score + offset)) := by
    change Except.ok (Number.int (weight * score + 1 * offset)) = _
    rw [one_mul]
  simp only [rescaled, Gauge.score, scored, weighted, total]

/-- Whether one memory holds a valid gauge, the other one the same gauge rescaled, and both the same
trail. -/
def HoldsRescaled (valid : Gauge Position Player → Prop) (weight offset : Int) (title : String)
    (memory other : Gauge Position Player × Trail Position) : Prop :=
  valid memory.1 ∧ other = (memory.1.rescaled weight offset title, memory.2)

omit [DecidableEq Player] [Worded Player] in
theorem HoldsRescaled.trail_eq {memory other : Gauge Position Player × Trail Position}
    (holds : HoldsRescaled valid weight offset title memory other) : other.2 = memory.2 := by
  rw [holds.2]

theorem scoresAlike_rescaled
    (computes : ∀ position, (Gauge.evaluator game).Computes valid player value position) :
    (Gauge.evaluator game).recorded.ScoresAlike (Gauge.evaluator game).recorded
      (HoldsRescaled valid weight offset title) (Number.Rescales weight offset) player player := by
  rintro position ⟨part, trail⟩ _ ⟨fit, rfl⟩
  rcases computes position part fit with ⟨after, scored, kept⟩
  have rescored : (part.rescaled weight offset title).score game position player =
      (.ok (.int (weight * value position + offset)), after.rescaled weight offset title) :=
    score_rescaled scored
  refine ⟨_, _, (after, { trail with scored := position :: trail.scored }), _, ?_, ?_,
    ⟨kept, rfl⟩, .int (value position)⟩
  · simp only [Evaluator.recorded, scored]
  · simp only [Evaluator.recorded, Gauge.evaluator, rescored]

/-- A positive weight and any offset change nothing that is decided. Whichever tree search is used,
to whatever depth and however it is cut short, it scores the same positions in the same order, asks
its deadline equally often and finds the same action; its score is the one found with the gauge
alone, multiplied and shifted, unless no score was found. A greedy search chooses the same action,
or fails alike. -/
theorem choices_rescaled
    (computes : ∀ position, (Gauge.evaluator game).Computes valid player value position)
    (fit : valid part) (positive : 1 ≤ weight) {depth : Int} (limited : 0 ≤ depth) (offset : Int)
    (title : String) (position : Position) (checks : Nat) (trail : Trail Position)
    (notes : Array Note) :
    ∃ sum,
      weightedSum [(.int weight, part), (1, .rule title fun _ _ => .ok (.int offset))] = .ok sum ∧
      (∀ method : TreeMethod, ∃ best other after otherAfter,
        (method.run game (Gauge.evaluator game).recorded deadline depth player position).Yields
          ⟨checks, (part, trail), notes⟩ best after ∧
        (method.run game (Gauge.evaluator game).recorded deadline depth player position).Yields
          ⟨checks, (sum, trail), notes⟩ other otherAfter ∧
        otherAfter.memory.2 = after.memory.2 ∧ otherAfter.checks = after.checks ∧
        other.action = best.action ∧ other.hasAction = best.hasAction ∧
        other.truncated = best.truncated ∧ best.score.Rescales weight offset other.score) ∧
      ∃ choice after otherAfter,
        (pickGreedy game (Gauge.evaluator game).recorded position player).run.run
          ⟨checks, (part, trail), notes⟩ = (choice, after) ∧
        (pickGreedy game (Gauge.evaluator game).recorded position player).run.run
          ⟨checks, (sum, trail), notes⟩ = (choice, otherAfter) ∧
        otherAfter.memory.2 = after.memory.2 := by
  have correspondence := Number.correspondence_rescales positive offset
  have alike : (Gauge.evaluator game).recorded.ScoresAlike (Gauge.evaluator game).recorded
      (HoldsRescaled valid weight offset title) (Number.Rescales weight offset) player player :=
    scoresAlike_rescaled computes
  have linked : Effort.Linked (HoldsRescaled valid weight offset title)
      ⟨checks, (part, trail), notes⟩
      ⟨checks, (part.rescaled weight offset title, trail), notes⟩ := ⟨rfl, rfl, fit, rfl⟩
  refine ⟨part.rescaled weight offset title, rfl, ?_, ?_⟩
  · intro method
    rw [TreeMethod.run_of_limited limited]
    rcases method.search_alongside correspondence alike (fun _ _ _ => rfl) _ _ linked with
      ⟨best, other, after, otherAfter, ran, otherRan, kept, corresponds⟩
    exact ⟨best, other, after, otherAfter, ran, otherRan, kept.memory.trail_eq,
      kept.checks_eq, corresponds.action_eq, corresponds.hasAction_eq, corresponds.truncated_eq,
      corresponds.score⟩
  · rcases exists_pickGreedy_eq correspondence alike linked with
      ⟨choice, after, otherAfter, ran, otherRan, kept⟩
    exact ⟨choice, after, otherAfter, ran, otherRan, kept.memory.trail_eq⟩

end Gauge

end

/-- Wins and losses in Nim, tripled and lowered by five, cut short at the fourth check. -/
theorem Gauge.choices_rescaled_nim :
    let start : Nim.Position := ⟨[2, 1], .one, none, false, by simp, by simp⟩
    (∀ position, (Gauge.evaluator Nim.game).Computes (· = Nim.winLoss) .one
        (Nim.winLossScore · .one) position) ∧ (1 : Int) ≤ 3 ∧ (0 : Int) ≤ 2 ∧
      ∃ sum, weightedSum [(.int 3, Nim.winLoss), (1, .rule "Constant" fun _ _ => .ok (.int (-5)))] =
          .ok sum ∧
        (∀ method : TreeMethod, ∃ best other after otherAfter,
          (method.run Nim.game (Gauge.evaluator Nim.game).recorded (.atCheck 4) 2 .one
            start).Yields ⟨0, (Nim.winLoss, ⟨[], 0⟩), #[]⟩ best after ∧
          (method.run Nim.game (Gauge.evaluator Nim.game).recorded (.atCheck 4) 2 .one
            start).Yields ⟨0, (sum, ⟨[], 0⟩), #[]⟩ other otherAfter ∧
          otherAfter.memory.2 = after.memory.2 ∧ otherAfter.checks = after.checks ∧
          other.action = best.action ∧ other.hasAction = best.hasAction ∧
          other.truncated = best.truncated ∧ best.score.Rescales 3 (-5) other.score) ∧
        ∃ choice after otherAfter,
          (pickGreedy Nim.game (Gauge.evaluator Nim.game).recorded start .one).run.run
            ⟨0, (Nim.winLoss, ⟨[], 0⟩), #[]⟩ = (choice, after) ∧
          (pickGreedy Nim.game (Gauge.evaluator Nim.game).recorded start .one).run.run
            ⟨0, (sum, ⟨[], 0⟩), #[]⟩ = (choice, otherAfter) ∧
          otherAfter.memory.2 = after.memory.2 := by
  intro start
  have computes := Nim.computes_winLoss .one
  exact ⟨computes, by decide, by decide,
    Gauge.choices_rescaled computes rfl (by decide) (by decide) (-5) "Constant" start 0 ⟨[], 0⟩
      #[]⟩

end GameSearch
