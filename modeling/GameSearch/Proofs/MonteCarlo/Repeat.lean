import GameSearch.Nim.Evaluators
import GameSearch.Proofs.Gauge.Restart
import GameSearch.Proofs.MonteCarlo.Exploration

/-!
# Repeating a search

Agents and games may share a gauge, so that a search finds it in any state that earlier scores and
searches have left it in. Since a search begins with a fresh start of its evaluator, none of this
shows: the same search builds the same tree every time.
-/

namespace GameSearch

section

variable {Memory Position Player Action : Type} [DecidableEq Player] [DecidableEq Action]
  [Worded Action] {game : Game Position Player Action}

/-- Nothing but what the evaluator makes of its memory at the start decides how a search goes. -/
theorem monteCarlo_run_congr {evaluator : Evaluator Memory Position Player} {deadline : Deadline}
    {scorer : ChildScorer} {maxIterations : Option Int} {player : Player} {position : Position}
    {memory other : Memory} (same : evaluator.startSearch other = evaluator.startSearch memory) :
    (monteCarlo game evaluator deadline scorer maxIterations player position).run.run
        (.start other) =
      (monteCarlo game evaluator deadline scorer maxIterations player position).run.run
        (.start memory) := by
  have started (memory : Memory) : (SearchM.startSearch evaluator).run.run (.start memory) =
      (.ok (), ⟨0, evaluator.startSearch memory, #[]⟩) := rfl
  rw [monteCarlo, SearchM.run_bind, SearchM.run_bind, started, started, same]

namespace Gauge

variable [Worded Player] {gauge : Gauge Position Player}

/-- One call that makes use of a gauge. -/
inductive Use (Position Player : Type) where
  | score (position : Position) (side : Player)
  | treeSearch (method : TreeMethod) (deadline : Deadline) (depth : Int) (seeker : Player)
      (position : Position)
  | monteCarlo (deadline : Deadline) (scorer : ChildScorer) (maxIterations : Option Int)
      (player : Player) (position : Position)

/-- The gauge after one use, also if the call fails. -/
def Use.after (game : Game Position Player Action) (gauge : Gauge Position Player) :
    Use Position Player → Gauge Position Player
  | .score position side => (gauge.score game position side).2
  | .treeSearch method deadline depth seeker position =>
    ((method.run game (Gauge.evaluator game) deadline depth seeker position).run.run
      (.start gauge)).2.memory
  | .monteCarlo deadline scorer maxIterations player position =>
    ((GameSearch.monteCarlo game (Gauge.evaluator game) deadline scorer maxIterations player
      position).run.run (.start gauge)).2.memory

/-- The gauge after a sequence of uses. -/
def afterAll (game : Game Position Player Action) (gauge : Gauge Position Player)
    (history : List (Use Position Player)) : Gauge Position Player :=
  history.foldl (Use.after game) gauge

theorem Recovers.restart_after (recovers : gauge.Recovers) (game : Game Position Player Action)
    (use : Use Position Player) : (use.after game gauge).restart = gauge.restart := by
  have keeps := recovers.keeps_restart game
  cases use with
  | score position side => exact restart_score game gauge position side
  | treeSearch method deadline depth seeker position => exact method.keeps_run keeps _ rfl
  | monteCarlo deadline scorer maxIterations player position =>
      exact keeps_monteCarlo keeps _ rfl

/-- The start of a search erases every history if the seeds are given. -/
theorem Recovers.restart_afterAll (recovers : gauge.Recovers) (game : Game Position Player Action)
    (history : List (Use Position Player)) :
    (gauge.afterAll game history).restart = gauge.restart := by
  induction history generalizing gauge with
  | nil => rfl
  | cons use history ih =>
      have same := recovers.restart_after game use
      have again : (use.after game gauge).Recovers := (congrArg restart same).trans
        (recovers.trans same.symm)
      exact (ih again).trans same

end Gauge

end

namespace Nim

/-- The gauges built from wins and losses, nim-sums, seeded playouts and weighted sums. -/
inductive Built : Gauge Position Player → Prop where
  | winLoss : Built winLoss
  | nimSum : Built nimSum
  | ofSeed {seed : Int} {cap : Option Int} {entropy : Random.Entropy}
      {gauge : Gauge Position Player} (seeded : Gauge.ofSeed (some seed) cap entropy = .ok gauge) :
      Built gauge
  | weightedSum {parts : List (Number × Gauge Position Player)} {gauge : Gauge Position Player}
      (each : ∀ part ∈ parts, Built part.2) (summed : Gauge.weightedSum parts = .ok gauge) :
      Built gauge

theorem Built.answers {gauge : Gauge Position Player} (built : Built gauge) : gauge.Answers := by
  induction built with
  | winLoss => exact .rule fun position side => ⟨_, rfl⟩
  | nimSum => exact .rule fun position side => ⟨_, rfl⟩
  | ofSeed seeded => exact Gauge.answers_ofSeed seeded
  | weightedSum each summed ih => exact Gauge.answers_weightedSum ih summed

theorem Built.recovers {gauge : Gauge Position Player} (built : Built gauge) : gauge.Recovers := by
  induction built with
  | winLoss => rfl
  | nimSum => rfl
  | ofSeed seeded => exact Gauge.recovers_ofSeed seeded
  | weightedSum each summed ih => exact Gauge.recovers_weightedSum ih summed

/-- A search with a limit comes to the same on every call, whatever the gauge has been used for
before, and leaves the same gauge behind. It comes to a tree, unless a score that the gauge gives to
a position that play leads to is too large for a double. A scorer here computes from its arguments
alone. -/
theorem monteCarlo_repeats {gauge : Gauge Position Player} (built : Built gauge)
    (deadline : Deadline) (scorer : ChildScorer) (limit : Int) (player : Player)
    (start : Position) :
    ∃ outcome after, (∀ history : List (Gauge.Use Position Player),
      (monteCarlo game (Gauge.evaluator game) deadline scorer (some limit) player start).run.run
        (.start (gauge.afterAll game history)) = (outcome, after)) ∧
      ((∃ tree, outcome = .ok tree) ∨ outcome = .error .integerTooLarge ∧
        (Gauge.evaluator game).Overflows game start fun memory =>
          memory.Answers ∧ memory.restart = gauge.restart) := by
  have step : ∀ (_ : Nat) (tree : SearchTree Position Player Action), tree.Explores game start →
      tree.Iterates game scorer start (·.Explores game start) :=
    fun _ _ explores => explores.iterates scorer explores.explores_credit
  have bounded : iterationBound deadline (some limit) = some limit.toNat := rfl
  have comes : (monteCarlo game (Gauge.evaluator game) deadline scorer (some limit) player
      start).ComesTo (.start gauge) _ _ :=
    monteCarlo_upholds (built.recovers.onlyOverflows_answers alwaysEnds) bounded step
      ⟨built.answers, rfl⟩ (SearchTree.explores_ofRoot game start player)
  -- What the unused gauge comes to is what all its histories come to.
  refine ⟨_, _, fun history =>
    monteCarlo_run_congr (built.recovers.restart_afterAll game history), ?_⟩
  rcases comes.cases with ⟨tree, after, ran, -⟩ | ⟨_, after, ran, rfl, overflows⟩
  · exact .inl ⟨tree, congrArg Prod.fst ran⟩
  · exact .inr ⟨congrArg Prod.fst ran, overflows⟩

/-- Eight iterations with a weighted sum inside another one. -/
theorem monteCarlo_repeats_nested :
    let start : Position := ⟨[2, 1], .one, none, false, by simp, by simp⟩
    let playouts : Gauge Position Player := .ofSeeding (.fixed 7) (some 3)
    let inner : Gauge Position Player := .plus (.plus .empty (.int 1) playouts) (.int 2) nimSum
    let gauge : Gauge Position Player := .plus (.plus .empty (.int 1000) winLoss) (.int 1) inner
    Built gauge ∧
      ∃ outcome after, (∀ history : List (Gauge.Use Position Player),
        (monteCarlo game (Gauge.evaluator game) .never (.uct1 (.real 1)) (some 8) .one
          start).run.run (.start (gauge.afterAll game history)) = (outcome, after)) ∧
        ((∃ tree, outcome = .ok tree) ∨ outcome = .error .integerTooLarge ∧
          (Gauge.evaluator game).Overflows game start fun memory =>
            memory.Answers ∧ memory.restart = gauge.restart) := by
  intro start playouts inner gauge
  have seeded : Gauge.ofSeed (some 7) (some 3) (fun _ => .ofSeed 0) = .ok playouts := rfl
  have inner_summed : Gauge.weightedSum [(.int 1, playouts), (.int 2, nimSum)] = .ok inner := rfl
  have summed : Gauge.weightedSum [(.int 1000, winLoss), (.int 1, inner)] = .ok gauge := rfl
  have inner_built : Built inner := by
    refine .weightedSum ?_ inner_summed
    simp [Built.ofSeed seeded, Built.nimSum]
  have built : Built gauge := by
    refine .weightedSum ?_ summed
    simp [inner_built, Built.winLoss]
  exact ⟨built, monteCarlo_repeats built .never (.uct1 (.real 1)) 8 .one start⟩

/-- A weighted sum with one huge weight does not come to a tree on any call. -/
theorem monteCarlo_repeats_heavy :
    let start : Position := ⟨[1], .one, none, false, by simp, by simp⟩
    Built heavyWinLoss ∧ ∀ history : List (Gauge.Use Position Player),
      ((monteCarlo game (Gauge.evaluator game) .never (.uct1 (.real 1)) (some 1) .one
        start).run.run (.start (heavyWinLoss.afterAll game history))).1 =
          .error .integerTooLarge := by
  intro start
  have summed : Gauge.weightedSum [(.int Number.overflow, winLoss)] = .ok heavyWinLoss := rfl
  have failed : ((monteCarlo game (Gauge.evaluator game) .never (.uct1 (.real 1)) (some 1) .one
      start).run.run (.start heavyWinLoss)).1 = .error .integerTooLarge :=
    SearchM.result_eq_error (by decide +kernel)
  have built : Built heavyWinLoss := .weightedSum (by simp [Built.winLoss]) summed
  refine ⟨built, fun history => ?_⟩
  exact (congrArg Prod.fst (monteCarlo_run_congr
    (built.recovers.restart_afterAll game history))).trans failed

end Nim

end GameSearch
