import GameSearch.Agent
import GameSearch.Proofs.Search.Greedy

/-!
# The choices of agents

An agent whose strategy picks an action returns this action. An agent that searches greedily with a
gauge that scores by a rule stays as it is.
-/

namespace GameSearch.Agent

variable {Memory Position Player Action : Type} [DecidableEq Player] [DecidableEq Action]
  [Worded Player] [Worded Action] {game : Game Position Player Action} {deadline : Deadline}
  {position : Position} {player : Player}

section

variable {evaluator : Evaluator Memory Position Player} {strategy : Strategy}
  {effort : Effort Memory}

theorem pickWith_of_over (name : String) {winner : Option Player}
    (ended : game.status position = .over winner) :
    (pickWith name strategy game evaluator deadline position).run.run effort =
      (.error (.gameOver name (Worded.optional winner)), effort) := by
  simp only [pickWith, ended]
  rfl

theorem pickWith_of_stuck (name : String) (turn : game.status position = .turn player)
    (stuck : (game.legal position player).toList = []) :
    (pickWith name strategy game evaluator deadline position).run.run effort =
      (.error (.noLegalAction name (Worded.plain player)), effort) := by
  have unavailable : game.firstLegal position player = none := Game.firstLegal_eq_none.mpr stuck
  simp only [pickWith, turn, unavailable]
  rfl

/-- Where there is a legal action, the strategy is asked, and its choice is noted. -/
theorem pickWith_of_movable (name : String) (turn : game.status position = .turn player)
    (legal : (game.legal position player).toList ≠ []) :
    pickWith name strategy game evaluator deadline position = (do
      match ← strategy.pick game evaluator deadline player position with
      | none => throw (.noLegalAction name (Worded.plain player))
      | some action =>
        SearchM.note .debug .agent
          (name ++ " picked " ++ Worded.literal action ++ " for " ++ Worded.plain player)
        return action) := by
  have available : ¬(game.firstLegal position player).isNone = true := by
    simpa [Game.firstLegal_eq_none, Option.isNone_iff_eq_none] using legal
  simp only [pickWith, turn]
  exact if_neg available

/-- An agent answers with what its strategy picks, and fails as its strategy does. -/
theorem pickWith_comesTo {condition : Action → Effort Memory → Prop} {faulty : Fault → Prop}
    (name : String) (turn : game.status position = .turn player)
    (legal : (game.legal position player).toList ≠ [])
    (picks : (strategy.pick game evaluator deadline player position).ComesTo effort
      (fun choice after => ∃ action, choice = some action ∧
        ∀ notes, condition action { after with notes }) faulty) :
    (pickWith name strategy game evaluator deadline position).ComesTo effort condition faulty := by
  rw [pickWith_of_movable name turn legal, SearchM.comesTo_bind]
  refine picks.mono ?_
  rintro _ after ⟨action, rfl, holds⟩
  refine SearchM.Returns.comesTo ?_
  simp only [SearchM.returns_bind, SearchM.returns_note, SearchM.returns_pure]
  exact holds _

theorem pickWith_returns {condition : Action → Effort Memory → Prop} (name : String)
    (turn : game.status position = .turn player)
    (legal : (game.legal position player).toList ≠ [])
    (picks : (strategy.pick game evaluator deadline player position).Returns effort
      fun choice after => ∃ action, choice = some action ∧
        ∀ notes, condition action { after with notes }) :
    (pickWith name strategy game evaluator deadline position).Returns effort condition :=
  (pickWith_comesTo name turn legal picks.comesTo).returns fun _ => not_false

end

/-- An agent that searches greedily with a rule that computes integers takes the first of the best
actions. -/
theorem choose_singleLevel (name title : String) (score : Position → Player → Except Fault Number)
    (omniscient : Bool) {value : Position → Int} (turn : game.status position = .turn player)
    (legal : (game.legal position player).toList ≠ [])
    (scores : ∀ action next, game.play position player action = .ok next →
      score next player = .ok (.int (value next))) :
    ∃ action notes,
      (searcher name .singleLevel (.rule title score) omniscient).choose game deadline position =
          (.ok action, .searcher name .singleLevel (.rule title score) omniscient, notes) ∧
        (Tracker.bestOf .greatest (fun next => .int (value next))
          (game.successors position player)).action = some action := by
  have computes : ∀ action next, game.play position player action = .ok next →
      (Gauge.evaluator game).Computes (· = .rule title score) player value next := by
    rintro action next played _ rfl
    exact ⟨_, by simp only [Gauge.evaluator, Gauge.score, scores action next played], rfl⟩
  let gauge : Gauge Position Player := .rule title score
  have returns : (pickWith name .singleLevel game (Gauge.evaluator game) deadline
      position).Returns (.start gauge) fun action after => after.memory = gauge ∧
        (Tracker.bestOf .greatest (fun next => .int (value next))
          (game.successors position player)).action = some action := by
    apply pickWith_returns name turn legal
    refine SearchM.returns_map.mpr ((pickGreedy_returns computes legal rfl).mono ?_)
    exact fun action after best => ⟨action, rfl, fun _ => best⟩
  rcases returns with ⟨action, after, chosen, kept, best⟩
  refine ⟨action, after.notes, ?_, best⟩
  have ran : pickWith name .singleLevel game (Gauge.evaluator game) deadline position
      (.start gauge) = (.ok action, after) := chosen
  simp only [choose, gauge] at ran kept ⊢
  rw [ran, ← kept]

end GameSearch.Agent
