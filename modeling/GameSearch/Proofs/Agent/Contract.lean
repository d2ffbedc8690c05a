import GameSearch.Proofs.Agent.Choice
import GameSearch.Proofs.MonteCarlo.Choice
import GameSearch.Proofs.Nim.Optimal
import GameSearch.Proofs.Search.Legality

/-!
# The contract of agents

An agent that is asked for a choice refuses exactly if there is nothing to choose: the game is over,
or the player to move has no legal action. Otherwise it answers with a legal action, whatever its
strategy, as long as its evaluator scores integers and something bounds its search. Every strategy
keeps this promise by itself, by what its tracker or its search tree can hold; nobody checks the
action in the end.

Two integers can get in the way. A score too large for a double cannot be summed up by Monte Carlo
tree search, and a depth of too many digits cannot be noted when a deadline cuts a tree search short.
-/

namespace GameSearch

variable {Memory Position Player Action : Type} {game : Game Position Player Action}
  {evaluator : Evaluator Memory Position Player} {deadline : Deadline} {valid : Memory → Prop}
  {position : Position} {player : Player} {effort : Effort Memory} {strategy : Strategy}

/-- Whether something bounds a search: a limit on its depth, or for Monte Carlo tree search a limit
on its iterations or a deadline that passes some day. -/
def Strategy.EndsBy (strategy : Strategy) (deadline : Deadline) : Prop :=
  match strategy with
  | .singleLevel => True
  | .tree _ depth => 0 ≤ depth
  | .monteCarlo _ maxIterations =>
    maxIterations ≠ none ∨ ∃ check, 0 < check ∧ deadline.passed check = true

theorem exists_iterationBound {maxIterations : Option Int}
    (ends : maxIterations ≠ none ∨ ∃ check, 0 < check ∧ deadline.passed check = true) :
    ∃ bound, iterationBound deadline maxIterations = some bound := by
  cases maxIterations with
  | some limit => exact ⟨_, rfl⟩
  | none =>
      rcases ends with limited | ⟨check, asked, passed⟩
      · exact absurd rfl limited
      · rcases deadline.horizon_le check asked passed with ⟨first, horizon, -⟩
        exact ⟨first, horizon⟩

variable [DecidableEq Player] [DecidableEq Action] [Worded Action]

/-- The faults that a strategy may come to where there is a legal action. -/
def Strategy.Excuses (strategy : Strategy) (game : Game Position Player Action)
    (evaluator : Evaluator Memory Position Player) (valid : Memory → Prop) (deadline : Deadline)
    (position : Position) (fault : Fault) : Prop :=
  match strategy with
  | .singleLevel => False
  | .tree _ depth =>
    fault = .unwrittenInteger ∧ ¬Numeral.Writable depth ∧ ¬deadline.NeverPasses
  | .monteCarlo _ _ => fault = .integerTooLarge ∧ evaluator.Overflows game position valid

/-- Whether a strategy samples games, and sums up what they come to. -/
def Strategy.Samples : Strategy → Prop
  | .monteCarlo _ _ => True
  | _ => False

/-- Whether a strategy can note that its deadline has cut it short, or never has to. -/
def Strategy.Reports (strategy : Strategy) (deadline : Deadline) : Prop :=
  deadline.NeverPasses ∨ ∃ title, strategy.name = .ok title

omit [DecidableEq Player] [DecidableEq Action] [Worded Action] in
theorem Strategy.Reports.not_excuses {strategy : Strategy} (reports : strategy.Reports deadline)
    (sums : strategy.Samples → ¬evaluator.Overflows game position valid) (fault : Fault) :
    ¬strategy.Excuses game evaluator valid deadline position fault := by
  cases strategy with
  | singleLevel => exact not_false
  | tree method depth =>
      rintro ⟨-, unwritable, passes⟩
      rcases reports with never | ⟨title, titled⟩
      · exact passes never
      · rw [name, method.title_of_not_writable unwritable] at titled
        cases titled
  | monteCarlo scorer maxIterations => exact fun excused => sums trivial excused.2

/-- Every strategy picks a legal action where there is one, unless it has an excuse. -/
theorem Strategy.pick_comesTo (strategy : Strategy) (scores : evaluator.ScoresIntegers valid)
    (ends : strategy.EndsBy deadline) (turn : game.status position = .turn player)
    (movable : (game.legal position player).toList ≠ []) (fit : valid effort.memory) :
    (strategy.pick game evaluator deadline player position).ComesTo effort
      (fun choice after => valid after.memory ∧
        ∃ action, choice = some action ∧ action ∈ game.legal position player)
      (strategy.Excuses game evaluator valid deadline position) := by
  obtain ⟨first, available⟩ : ∃ first, game.firstLegal position player = some first := by
    rwa [← Option.ne_none_iff_exists', ne_eq, Game.firstLegal_eq_none]
  cases strategy with
  | singleLevel =>
      refine SearchM.Returns.comesTo (SearchM.returns_map.mpr ?_)
      refine (pickGreedy_returns_legal scores turn movable fit).mono ?_
      exact fun action after picked => ⟨picked.1, action, rfl, picked.2⟩
  | tree method depth =>
      have picks : (method.pick game evaluator deadline depth player position).ComesTo effort
          (fun action after => valid after.memory ∧ action ∈ game.legal position player) _ :=
        method.pick_comesTo ends scores.neverFails turn available fit
      refine SearchM.comesTo_map.mpr (picks.mono ?_)
      exact fun action after picked => ⟨picked.1, action, rfl, picked.2⟩
  | monteCarlo scorer maxIterations =>
      rcases exists_iterationBound ends with ⟨bound, bounded⟩
      exact pickMonteCarlo_comesTo scores.neverFails bounded turn available fit

namespace Agent

variable [Worded Player]

/-- An agent refuses a finished game and a player without legal actions, and else answers with a
legal action of the player to move, unless its strategy has an excuse. The scorer of a Monte Carlo
tree search computes from its arguments alone. -/
theorem pickWith_answers (name : String) (scores : evaluator.ScoresIntegers valid)
    (ends : strategy.EndsBy deadline) {memory : Memory} (fit : valid memory) :
    let answer := ((pickWith name strategy game evaluator deadline position).run.run
      (.start memory)).1
    (∀ winner, game.status position = .over winner →
        answer = .error (.gameOver name (Worded.optional winner))) ∧
      (∀ player, game.status position = .turn player → (game.legal position player).toList = [] →
        answer = .error (.noLegalAction name (Worded.plain player))) ∧
      ∀ player, game.status position = .turn player → (game.legal position player).toList ≠ [] →
        (∃ action ∈ game.legal position player, answer = .ok action) ∨
          ∃ fault, answer = .error fault ∧
            strategy.Excuses game evaluator valid deadline position fault := by
  intro answer
  refine ⟨?_, ?_, ?_⟩
  · intro winner ended
    exact congrArg Prod.fst (pickWith_of_over name ended)
  · intro player turn stuck
    exact congrArg Prod.fst (pickWith_of_stuck name turn stuck)
  · intro player turn movable
    have picks : (pickWith name strategy game evaluator deadline position).ComesTo (.start memory)
        (fun action _ => action ∈ game.legal position player)
        (strategy.Excuses game evaluator valid deadline position) := by
      apply pickWith_comesTo name turn movable
      refine (strategy.pick_comesTo scores ends turn movable fit).mono ?_
      rintro choice after ⟨-, action, chosen, legal⟩
      exact ⟨action, chosen, fun _ => legal⟩
    rcases picks.cases with ⟨action, after, ran, legal⟩ | ⟨fault, after, ran, excused⟩
    · exact .inl ⟨action, legal, congrArg Prod.fst ran⟩
    · exact .inr ⟨fault, congrArg Prod.fst ran, excused⟩

/-- Monte Carlo tree search without a limit answers in Nim, for a deadline that passes at once. -/
theorem pickWith_answers_nim :
    let start : Nim.Position := ⟨[2, 1], .one, none, false, by simp, by simp⟩
    let strategy : Strategy := .monteCarlo .leastVisited none
    let evaluator := Gauge.evaluator Nim.game
    let answer := ((pickWith "SEARCHER" strategy Nim.game evaluator .expired start).run.run
      (.start Nim.winLoss)).1
    evaluator.ScoresIntegers (· = Nim.winLoss) ∧ strategy.EndsBy .expired ∧
      ((∃ action ∈ Nim.game.legal start .one, answer = .ok action) ∨
        ∃ fault, answer = .error fault ∧
          strategy.Excuses Nim.game evaluator (· = Nim.winLoss) .expired start fault) := by
  intro start strategy evaluator answer
  have scores : (Gauge.evaluator Nim.game).ScoresIntegers (· = Nim.winLoss) := by
    constructor
    · rintro _ rfl
      rfl
    · rintro position side _ rfl
      exact ⟨_, _, rfl, rfl⟩
  have ends : strategy.EndsBy .expired := .inr ⟨1, Nat.one_pos, rfl⟩
  have movable : (Nim.game.legal start .one).toList ≠ [] := Nim.Position.legal_ne_nil rfl
  exact ⟨scores, ends, (pickWith_answers "SEARCHER" scores ends rfl).2.2 .one rfl movable⟩

/-- Of the two piles the first can be taken, but the nim-sum of what is left is no double, and the
search fails. -/
theorem pickWith_fails_heavy :
    let start : Nim.Position := ⟨[1, Number.overflow], .one, none, false, by simp, by simp⟩
    let strategy : Strategy := .monteCarlo (.uct1 (.real 1)) (some 1)
    (Gauge.evaluator Nim.game).ScoresIntegers (· = Nim.nimSum) ∧ strategy.EndsBy .never ∧
      Nim.game.status start = .turn .one ∧ Nim.game.firstLegal start .one = some ⟨0, 1⟩ ∧
      ((pickWith "SEARCHER" strategy Nim.game (Gauge.evaluator Nim.game) .never start).run.run
        (.start Nim.nimSum)).1 = .error .integerTooLarge := by
  intro start strategy
  refine ⟨?_, .inl (by simp), rfl, rfl, SearchM.result_eq_error (by decide +kernel)⟩
  constructor
  · rintro _ rfl
    rfl
  · rintro position side _ rfl
    exact ⟨_, _, rfl, rfl⟩

end Agent

end GameSearch
