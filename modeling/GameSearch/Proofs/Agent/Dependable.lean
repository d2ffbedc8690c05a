import GameSearch.Proofs.Agent.Region
import GameSearch.Proofs.Gauge.Opposite
import GameSearch.Proofs.Nim.Soundness

/-!
# Agents that always answer

Of the gauges of Nim that are known by default all but one score every position, and the perfect one
scores those whose rules have a closed form. All scores but nim-sums are small, and a nim-sum has no
more bits than the largest pile. The rules do not change in the course of a game, and no pile grows.
So an agent with a bounded search answers at every position of a game, unless it goes by the closed
form of a game that has none, sums up the nim-sums of huge piles, or has a depth of too many digits to
note that its time is up.
-/

namespace GameSearch.Nim

variable {closed light summed : Bool} {gauge : Gauge Position Player} {position : Position}
  {player : Player} {deadline : Deadline} {agent : NimAgent}

/-- How many bits a pile may have whose nim-sums are summed up. -/
def lightBits : Nat := 1023

/-- Whether the rules of a position have a closed form, if one is called for, and the piles are light
enough to sum up nim-sums, if this is called for. -/
def Covered (closed light : Bool) (position : Position) : Prop :=
  (closed = true → position.hasClosedForm = true) ∧
    (light = true → ∀ size ∈ position.piles, size < 2 ^ lightBits)

instance (closed light : Bool) : DecidablePred (Covered closed light) := fun position =>
  inferInstanceAs (Decidable ((closed = true → position.hasClosedForm = true) ∧
    (light = true → ∀ size ∈ position.piles, size < 2 ^ lightBits)))

theorem staysIn_covered (closed light : Bool) : game.StaysIn (Covered closed light) := by
  intro position player action next covered played
  rcases Position.rules_eq_of_play played with ⟨limit_eq, misere_eq⟩
  refine ⟨fun called => ?_, fun called size mem => ?_⟩
  · rw [Position.hasClosedForm, limit_eq, misere_eq]
    exact covered.1 called
  · rcases Position.play_eq_ok.mp (Position.move_eq_ok.mp played) with
      ⟨-, -, pile, old, at_pile, -, -, -, piles_eq, -⟩
    rw [piles_eq] at mem
    have light := covered.2 called
    rcases List.mem_or_eq_of_mem_set mem with kept | rfl
    · exact light size kept
    · exact Nat.lt_of_le_of_lt (Nat.sub_le old _) (light old (List.mem_of_getElem? at_pile))

/-- The gauges that score all covered positions with integers. The perfect one calls for a closed form
and, if scores are summed up, the one of nim-sums calls for light piles. -/
inductive Dependable (closed light summed : Bool) : Gauge Position Player → Prop where
  | winLoss : Dependable closed light summed winLoss
  | perfect (called : closed = true) : Dependable closed light summed perfect
  | nimSum (called : summed = true → light = true) : Dependable closed light summed nimSum
  | playout (seeding : Random.Seeding) (cap : Option Int) (generator : Random.Generator) :
      Dependable closed light summed (.playout seeding cap generator)

theorem Dependable.restart (dependable : Dependable closed light summed gauge) :
    Dependable closed light summed gauge.restart := by
  cases dependable with
  | winLoss => exact .winLoss
  | perfect called => exact .perfect called
  | nimSum called => exact .nimSum called
  | playout seeding cap generator => exact .playout _ cap _

theorem natAbs_winLossScore_le (position : Position) (side : Player) :
    (winLossScore position side).natAbs ≤ 1 := by
  unfold winLossScore outcome
  split
  · rw [Option.getD_some]
    split <;> decide
  · decide

theorem natAbs_optimalScore_le (position : Position) (side : Player) :
    (position.optimalScore side).natAbs ≤ 1 := by
  unfold Position.optimalScore
  split <;> decide

theorem natAbs_nimSumScore_le (light : ∀ size ∈ position.piles, size < 2 ^ lightBits)
    (side : Player) : (nimSumScore position side).natAbs ≤ 2 ^ lightBits := by
  have sum := Nat.le_of_lt (Position.nimSum_lt_two_pow light)
  unfold nimSumScore
  split
  · rename_i score ended
    have small := natAbs_winLossScore_le position side
    rw [winLossScore, ended, Option.getD_some] at small
    have thousands : (score * 1000).natAbs ≤ 1000 := by omega
    exact thousands.trans (by decide +kernel)
  · split <;> omega

/-- Such a gauge scores a covered position with an integer that, if scores are summed up, fits. -/
theorem Dependable.exists_score_eq (dependable : Dependable closed light summed gauge)
    (covered : Covered closed light position) (side : Player) :
    ∃ (score : Int) (after : Gauge Position Player),
      gauge.score game position side = (.ok (.int score), after) ∧
      Dependable closed light summed after ∧ (summed = true → (Number.int score).fits = true) := by
  cases dependable with
  | winLoss =>
      exact ⟨winLossScore position side, Nim.winLoss, rfl, .winLoss, fun _ =>
        Number.fits_of_natAbs_le (by decide) (natAbs_winLossScore_le position side)⟩
  | perfect called =>
      exact ⟨position.optimalScore side, Nim.perfect, score_perfect (covered.1 called) side,
        .perfect called, fun _ =>
          Number.fits_of_natAbs_le (by decide) (natAbs_optimalScore_le position side)⟩
  | nimSum called =>
      refine ⟨nimSumScore position side, Nim.nimSum, rfl, .nimSum called, fun summed => ?_⟩
      exact Number.fits_of_natAbs_le (by decide +kernel)
        (natAbs_nimSumScore_le (covered.2 (called summed)) side)
  | playout seeding cap generator =>
      rcases Random.exists_boundedPlayout_eq alwaysEnds Random.Generator.dice cap position
        generator with ⟨winner, after, -, scored⟩
      rcases Random.exists_outcomeScore winner side with ⟨score, score_eq, small⟩
      refine ⟨score, .playout seeding cap after, ?_, .playout seeding cap after, fun _ =>
        Number.fits_of_natAbs_le (by decide) small⟩
      simp only [Gauge.score, scored, score_eq]

theorem exists_confined_score_eq (dependable : Dependable closed light summed gauge)
    (position : Position) (side : Player) :
    ∃ (score : Int) (after : Gauge Position Player),
      ((Gauge.evaluator game).confined (Covered closed light)).score position side gauge =
        (.ok (.int score), after) ∧
      Dependable closed light summed after ∧ (summed = true → (Number.int score).fits = true) := by
  by_cases covered : Covered closed light position
  · simp only [Evaluator.confined, if_pos covered]
    exact dependable.exists_score_eq covered side
  · simp only [Evaluator.confined, if_neg covered]
    exact ⟨0, gauge, rfl, dependable, fun _ => by decide⟩

theorem scoresIntegers_confined (closed light summed : Bool) :
    ((Gauge.evaluator game).confined (Covered closed light)).ScoresIntegers
      (Dependable closed light summed) where
  startSearch _ dependable := dependable.restart
  score position side gauge dependable := by
    rcases exists_confined_score_eq dependable position side with ⟨score, after, scored, kept, -⟩
    exact ⟨score, after, scored, kept⟩

/-- Scores that are summed up are not too large. -/
theorem not_overflows_confined (closed light : Bool) (start : Position) :
    ¬((Gauge.evaluator game).confined (Covered closed light)).Overflows game start
      (Dependable closed light true) := by
  rintro ⟨history, position, side, memory, -, dependable, large⟩
  rcases exists_confined_score_eq dependable position side with ⟨score, after, scored, -, fits⟩
  rw [scored] at large
  have counted : (Number.int score).asDouble = .error .integerTooLarge := large
  rw [Number.asDouble_of_fits (fits rfl)] at counted
  cases counted

/-- The gauges that are known by default are dependable where what they call for is there. -/
theorem dependable_of_get? {key : String} (known : key ∈ gauges.map Prod.fst)
    (called : key = "perfect" → closed = true)
    (counted : key = "nim_sum" → summed = true → light = true) :
    ∃ make, gauges.get? key = some make ∧
      ∀ entropy, ∃ gauge, make entropy = .ok gauge ∧ Dependable closed light summed gauge := by
  simp only [gauges, List.map_cons, List.map_nil, List.mem_cons, List.not_mem_nil,
    or_false] at known
  rcases known with rfl | rfl | rfl | rfl
  · exact ⟨_, rfl, fun _ => ⟨winLoss, rfl, .winLoss⟩⟩
  · exact ⟨_, rfl, fun _ => ⟨perfect, rfl, .perfect (called rfl)⟩⟩
  · exact ⟨_, rfl, fun _ => ⟨nimSum, rfl, .nimSum (counted rfl)⟩⟩
  · exact ⟨_, rfl, fun entropy => ⟨randomPlayout entropy, rfl, .playout _ _ _⟩⟩

/-- The agents with a search that is bounded within each of some deadlines, and a dependable gauge. -/
inductive Ready (deadlines : Deadlines) (closed light : Bool) : NimAgent → Prop where
  | searcher {name : String} {strategy : Strategy} {gauge : Gauge Position Player}
      {omniscient summed : Bool} (ends : ∀ count, strategy.EndsBy (deadlines count))
      (reports : ∀ count, strategy.Reports (deadlines count))
      (sums : strategy.Samples → summed = true)
      (dependable : Dependable closed light summed gauge) :
      Ready deadlines closed light (.searcher name strategy gauge omniscient)

/-- Such an agent answers with a legal action wherever there is one, and stays such an agent. -/
theorem Ready.choose_returns {deadlines : Deadlines} (ready : Ready deadlines closed light agent)
    (covered : Covered closed light position) (turn : game.status position = .turn player)
    (count : Nat) :
    ∃ action after notes, agent.choose game (deadlines count) position = (.ok action, after, notes) ∧
      action ∈ game.legal position player ∧ Ready deadlines closed light after := by
  cases ready with
  | @searcher name strategy gauge omniscient summed ends reports sums dependable =>
      have movable := alwaysEnds.movable position player turn
      have picks := strategy.pick_comesTo (scoresIntegers_confined closed light summed)
        (ends count) turn movable (show Dependable closed light summed (Effort.start gauge).memory
          from dependable)
      have overflows (samples : strategy.Samples) :
          ¬((Gauge.evaluator game).confined (Covered closed light)).Overflows game position
            (Dependable closed light summed) := by
        rw [sums samples]
        exact not_overflows_confined closed light position
      have picks := picks.returns ((reports count).not_excuses overflows)
      rw [← strategy.pick_congr (staysIn_covered closed light)
        ((Gauge.evaluator game).agreesOn_confined (Covered closed light)) (ends count)
        covered] at picks
      have returns : (Agent.pickWith name strategy game (Gauge.evaluator game) (deadlines count)
          position).Returns (.start gauge) fun action after =>
            action ∈ game.legal position player ∧ Dependable closed light summed after.memory := by
        apply Agent.pickWith_returns name turn movable
        refine picks.mono ?_
        rintro choice after ⟨kept, action, chosen, legal⟩
        exact ⟨action, chosen, fun _ => ⟨legal, kept⟩⟩
      rcases returns with ⟨action, after, ran, legal, kept⟩
      refine ⟨action, .searcher name strategy after.memory omniscient, after.notes, ?_, legal,
        .searcher ends reports sums kept⟩
      have chosen : Agent.pickWith name strategy game (Gauge.evaluator game) (deadlines count)
        position (.start gauge) = (.ok action, after) := ran
      simp only [Agent.choose, chosen]

end GameSearch.Nim
