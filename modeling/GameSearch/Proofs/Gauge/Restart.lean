import GameSearch.Proofs.Gauge.Opposite
import GameSearch.Proofs.Search.Memory

/-!
# What gauges remember

The generators of its playouts are all that a gauge remembers from one score to the next, and at the
start of a search each of them gives way to a new one. If the new ones come from seeds, the start of a
search erases whatever has been done with the gauge before.
-/

namespace GameSearch

namespace Gauge

variable {Position Player Action : Type} {gauge : Gauge Position Player}

/-- Whether a second search starts with the same gauge as the first one, as it does if all seeds are
given. -/
def Recovers (gauge : Gauge Position Player) : Prop := gauge.restart.restart = gauge.restart

theorem recovers_playout (seed : Nat) (cap : Option Int) (generator : Random.Generator) :
    (playout (.fixed seed) cap generator : Gauge Position Player).Recovers := by
  simp only [Recovers, restart, ofSeeding, Random.Seeding.next]

theorem recovers_ofSeed {seed : Int} {cap : Option Int} {entropy : Random.Entropy}
    (seeded : ofSeed (some seed) cap entropy = .ok gauge) : gauge.Recovers := by
  cases seed with
  | ofNat seed =>
    cases seeded
    exact recovers_playout seed cap _
  | negSucc seed => cases seeded

/-- A property of weighted sums that is inherited from the summands. -/
theorem weightedSum_induction {motive : Gauge Position Player → Prop} (empty : motive .empty)
    (plus : ∀ sum weight part, motive sum → motive part → motive (.plus sum weight part))
    {parts : List (Number × Gauge Position Player)} (each : ∀ part ∈ parts, motive part.2)
    (summed : weightedSum parts = .ok gauge) : motive gauge := by
  have foldl : ∀ sum : Gauge Position Player, motive sum →
      motive (parts.foldl (fun sum part => .plus sum part.1 part.2) sum) := by
    clear summed
    induction parts with
    | nil => exact fun sum holds => holds
    | cons part parts ih =>
        intro sum holds
        rw [List.forall_mem_cons] at each
        exact ih each.2 _ (plus sum part.1 part.2 holds each.1)
  unfold weightedSum at summed
  split at summed
  · cases summed
  · cases summed
    exact foldl .empty empty

theorem recovers_weightedSum {parts : List (Number × Gauge Position Player)}
    (each : ∀ part ∈ parts, part.2.Recovers) (summed : weightedSum parts = .ok gauge) :
    gauge.Recovers := by
  refine weightedSum_induction rfl ?_ each summed
  intro sum weight part recovers part_recovers
  rw [Recovers, restart, restart, recovers, part_recovers]

/-- The gauges whose rules have a score for every position. -/
inductive Answers : Gauge Position Player → Prop where
  | rule {name : String} {scoring : Position → Player → Except Fault Number}
      (answers : ∀ position side, ∃ score, scoring position side = .ok score) :
      Answers (.rule name scoring)
  | playout (seeding : Random.Seeding) (cap : Option Int) (generator : Random.Generator) :
      Answers (.playout seeding cap generator)
  | empty : Answers .empty
  | plus {sum part : Gauge Position Player} (weight : Number) (answers : Answers sum)
      (part_answers : Answers part) : Answers (.plus sum weight part)

theorem Answers.restart (answers : gauge.Answers) : gauge.restart.Answers := by
  induction answers with
  | rule answers => exact .rule answers
  | playout seeding cap generator => exact .playout _ cap _
  | empty => exact .empty
  | plus weight _ _ sum_ih part_ih => exact .plus weight sum_ih part_ih

theorem answers_ofSeed {seed cap : Option Int} {entropy : Random.Entropy}
    (seeded : ofSeed seed cap entropy = .ok gauge) : gauge.Answers := by
  unfold ofSeed at seeded
  split at seeded
  · cases seeded
    exact .playout _ _ _
  · cases seeded
    exact .playout _ _ _
  · cases seeded

theorem answers_weightedSum {parts : List (Number × Gauge Position Player)}
    (each : ∀ part ∈ parts, part.2.Answers) (summed : weightedSum parts = .ok gauge) :
    gauge.Answers :=
  weightedSum_induction .empty (fun _ weight _ => .plus weight) each summed

/-- The gauges without playouts, which have nothing to remember. -/
inductive Steady : Gauge Position Player → Prop where
  | rule (name : String) (scoring : Position → Player → Except Fault Number) :
      Steady (.rule name scoring)
  | empty : Steady .empty
  | plus {sum part : Gauge Position Player} (weight : Number) (steady : Steady sum)
      (part_steady : Steady part) : Steady (.plus sum weight part)

theorem Steady.restart_eq (steady : gauge.Steady) : gauge.restart = gauge := by
  induction steady with
  | rule name scoring => rfl
  | empty => rfl
  | plus weight _ _ sum_ih part_ih => rw [restart, sum_ih, part_ih]

variable [DecidableEq Player] [Worded Player] {game : Game Position Player Action}

/-- Scoring with a weighted sum scores with the sum before the last summand, and with this summand
if that has not failed. -/
theorem exists_score_plus_eq (game : Game Position Player Action) (sum : Gauge Position Player)
    (weight : Number) (part : Gauge Position Player) (position : Position) (side : Player) :
    ∃ last, ((plus sum weight part).score game position side).2 =
        .plus (sum.score game position side).2 weight last ∧
      (last = part ∨ last = (part.score game position side).2) := by
  rw [score]
  rcases sum.score game position side with ⟨fault | total, after⟩
  · exact ⟨part, rfl, .inl rfl⟩
  · rcases part.score game position side with ⟨fault | value, last⟩
    · exact ⟨last, rfl, .inr rfl⟩
    · exact ⟨last, rfl, .inr rfl⟩

theorem Steady.score_eq (steady : gauge.Steady) (game : Game Position Player Action)
    (position : Position) (side : Player) : (gauge.score game position side).2 = gauge := by
  induction steady with
  | rule name scoring => rfl
  | empty => rfl
  | @plus sum part weight _ _ sum_ih part_ih =>
      rcases exists_score_plus_eq game sum weight part position side with
        ⟨last, scored, rfl | rfl⟩
      · rw [scored, sum_ih]
      · rw [scored, sum_ih, part_ih]

theorem Steady.keeps (steady : gauge.Steady) (game : Game Position Player Action) :
    (Gauge.evaluator game).Keeps (· = gauge) where
  startSearch := by
    rintro _ rfl
    exact steady.restart_eq
  score := by
    rintro position side _ rfl
    exact steady.score_eq game position side

/-- A score leaves nothing behind that the start of a search does not replace. -/
theorem restart_score (game : Game Position Player Action) (gauge : Gauge Position Player)
    (position : Position) (side : Player) :
    (gauge.score game position side).2.restart = gauge.restart := by
  induction gauge with
  | rule name scoring => rfl
  | playout seeding cap generator => rfl
  | empty => rfl
  | plus sum weight part sum_ih part_ih =>
      rcases exists_score_plus_eq game sum weight part position side with
        ⟨last, scored, rfl | rfl⟩
      · rw [scored, restart, restart, sum_ih]
      · rw [scored, restart, restart, sum_ih, part_ih]

theorem Recovers.keeps_restart (recovers : gauge.Recovers) (game : Game Position Player Action) :
    (Gauge.evaluator game).Keeps (·.restart = gauge.restart) where
  startSearch _ same := (congrArg restart same).trans recovers
  score position side gauge same := (restart_score game gauge position side).trans same

/-- A weighted summand changes a sum, unless an integer is too large for a double. -/
theorem weighted_cases (total weight value : Number) :
    (∃ sum, (do total.plus (← weight.times value)) = .ok sum) ∨
      (do total.plus (← weight.times value)) = .error .integerTooLarge := by
  rcases weight.times_cases value with ⟨product, product_eq⟩ | product_eq
  · rw [product_eq]
    exact total.plus_cases product
  · rw [product_eq]
    exact .inr rfl

/-- A sum fails like its first part. -/
theorem score_plus_of_sum {sum part : Gauge Position Player} {weight : Number} {position : Position}
    {side : Player} {fault : Fault} (failed : (sum.score game position side).1 = .error fault) :
    ((Gauge.plus sum weight part).score game position side).1 = .error fault := by
  rw [score]
  rcases scored : sum.score game position side with ⟨_ | total, after⟩
  · rw [scored] at failed
    exact failed
  · rw [scored] at failed
    cases failed

/-- If the first part of a sum answers, the sum fails like its second part. -/
theorem score_plus_of_part {sum part after : Gauge Position Player} {weight total : Number}
    {position : Position} {side : Player} {fault : Fault}
    (summed : sum.score game position side = (.ok total, after))
    (failed : (part.score game position side).1 = .error fault) :
    ((Gauge.plus sum weight part).score game position side).1 = .error fault := by
  rw [score, summed]
  rcases scored : part.score game position side with ⟨_ | value, partAfter⟩
  · rw [scored] at failed
    exact failed
  · rw [scored] at failed
    cases failed

/-- In a game that is bound to end, such a gauge answers, unless an integer is too large for a
double. -/
theorem Answers.score_cases (ends : game.AlwaysEnds) (answers : gauge.Answers)
    (position : Position) (side : Player) :
    (∃ (value : Number) (after : Gauge Position Player),
      gauge.score game position side = (.ok value, after) ∧ after.Answers) ∨
      (gauge.score game position side).1 = .error .integerTooLarge := by
  induction answers with
  | @rule name scoring answers =>
      rcases answers position side with ⟨value, scored⟩
      refine .inl ⟨value, .rule name scoring, ?_, .rule answers⟩
      rw [score, scored]
  | playout seeding cap generator =>
      rcases Random.exists_boundedPlayout_eq ends Random.Generator.dice cap position generator with
        ⟨winner, after, -, played⟩
      refine .inl ⟨Random.outcomeScore winner side, .playout seeding cap after, ?_,
        .playout seeding cap after⟩
      simp only [score, played]
  | empty => exact .inl ⟨0, .empty, rfl, .empty⟩
  | @plus sum part weight _ _ sum_ih part_ih =>
      rcases sum_ih with ⟨total, sumAfter, summed, sum_answers⟩ | failed
      · rcases part_ih with ⟨value, partAfter, scored, part_answers⟩ | failed
        · rw [score, summed, scored]
          rcases weighted_cases total weight value with ⟨result, result_eq⟩ | result_eq
          · exact .inl ⟨result, .plus sumAfter weight partAfter, by rw [← result_eq],
              .plus weight sum_answers part_answers⟩
          · exact .inr result_eq
        · exact .inr (score_plus_of_part summed failed)
      · exact .inr (score_plus_of_sum failed)

/-- In a game that is bound to end, such a gauge fails only because of integers that are too large,
and all that it may remember is erased by a restart if its seeds are given. -/
theorem Recovers.onlyOverflows_answers (recovers : gauge.Recovers) (ends : game.AlwaysEnds) :
    (Gauge.evaluator game).OnlyOverflows fun memory =>
      memory.Answers ∧ memory.restart = gauge.restart where
  startSearch memory fit :=
    ⟨fit.1.restart, (recovers.keeps_restart game).startSearch memory fit.2⟩
  score position side memory fit := by
    have kept := (recovers.keeps_restart game).score position side memory fit.2
    rcases fit.1.score_cases ends position side with ⟨value, after, scored, answers⟩ | failed
    · refine .inl ⟨value, after, scored, answers, ?_⟩
      simpa only [Gauge.evaluator, scored] using kept
    · exact .inr failed

end Gauge

end GameSearch
