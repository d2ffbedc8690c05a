import GameSearch.Contest.Play
import GameSearch.Proofs.Gauge.Restart
import Mathlib.Data.List.Forall2

/-!
# Players who go by the position

Some agents choose the same at the same position, whatever they have been through. How a game
between such agents goes is settled by the rules and by their choices: it does not matter where they
keep what they remember, who else keeps something there, or what has been spent by then.

A seat without any memory serves as the measure. `Game.outcome` is how a game goes between such
seats, and every game between players who go by the position goes like that.
-/

namespace GameSearch

variable {Memory Position Player Action : Type}

/-- Whether a seat makes given choices as long as an invariant of the memory holds, and upholds the
invariant. -/
def Seat.GoesBy (seat : Seat Memory Position Action) (invariant : Memory → Prop)
    (choice : Position → Except Fault Action) : Prop :=
  ∀ position effort, invariant effort.memory →
    ((seat.choose position).run.run effort).1 = choice position ∧
      invariant ((seat.choose position).run.run effort).2.memory

/-- The seat of a player who remembers nothing. -/
def Seat.memoryless (choice : Position → Except Fault Action) : Seat Unit Position Action where
  name := ""
  choose position := fun effort => (choice position, effort)

theorem Seat.run_memoryless (choice : Position → Except Fault Action) (position : Position)
    (effort : Effort Unit) :
    ((memoryless choice).choose position).run.run effort = (choice position, effort) := rfl

/-- How a game goes between players who make given choices and remember nothing. -/
def Game.outcome [DecidableEq Player] [Worded Player] [Worded Action]
    (game : Game Position Player Action)
    (choices : List (Player × (Position → Except Fault Action))) (maxTurns : Option Int)
    (start : Position) : Except Fault (GameResult Player Action) :=
  (playGame game (seatOf (choices.map fun entry => (entry.1, .memoryless entry.2))) maxTurns start
    (.start ())).result

/-- Whether a seat makes the choices of a memoryless one as long as an invariant holds. -/
def Seat.Follows (invariant : Memory → Prop) (seat : Seat Memory Position Action)
    (other : Seat Unit Position Action) : Prop :=
  ∃ choice, other = .memoryless choice ∧ seat.GoesBy invariant choice

theorem exists_memoryless {invariant : Memory → Prop} {seat : Seat Memory Position Action}
    {other : Option (Seat Unit Position Action)}
    (follows : Option.Rel (Seat.Follows invariant) (some seat) other) :
    ∃ choice, other = some (.memoryless choice) ∧ seat.GoesBy invariant choice := by
  rcases follows with ⟨choice, rfl, goes⟩
  exact ⟨choice, rfl, goes⟩

namespace Seat.GoesBy

variable {seat : Seat Memory Position Action} {invariant other : Memory → Prop}
  {choice : Position → Except Fault Action}

theorem and_right (goes : seat.GoesBy invariant choice)
    (keeps : ∀ position, (seat.choose position).Keeps other) :
    seat.GoesBy (fun memory => invariant memory ∧ other memory) choice := by
  intro position effort fit
  rcases goes position effort fit.1 with ⟨chosen, kept⟩
  exact ⟨chosen, kept, keeps position effort fit.2⟩

theorem and_left (goes : seat.GoesBy invariant choice)
    (keeps : ∀ position, (seat.choose position).Keeps other) :
    seat.GoesBy (fun memory => other memory ∧ invariant memory) choice := by
  intro position effort fit
  rcases goes position effort fit.2 with ⟨chosen, kept⟩
  exact ⟨chosen, keeps position effort fit.1, kept⟩

end Seat.GoesBy

section

variable [Worded Player] [Worded Action] {game : Game Position Player Action}
  {seats : Player → Option (Seat Memory Position Action)} {invariant : Memory → Prop}
  {maxTurns : Option Int}

/-- What every seat upholds is upheld by the game, be it that a fault breaks it off. -/
theorem playOn_keeps
    (keeps : ∀ player seat, seats player = some seat →
      ∀ position, (seat.choose position).Keeps invariant)
    {remaining : Nat} {record : Record Position Player Action} {effort : Effort Memory}
    (fit : invariant effort.memory) :
    invariant (playOn game seats maxTurns remaining record effort).effort.memory := by
  fun_induction playOn game seats maxTurns remaining record effort with
  | case1 | case2 | case3 | case4 => exact fit
  | case5 record effort _ player _ _ _ seat seated fault after chosen =>
      have kept := keeps player seat seated record.position effort fit
      rwa [chosen] at kept
  | case6 record effort _ player _ _ _ seat seated action after chosen =>
      have kept := keeps player seat seated record.position effort fit
      rwa [chosen] at kept
  | case7 record effort _ player _ _ _ seat seated action after chosen _ _ ih =>
      have kept := keeps player seat seated record.position effort fit
      rw [chosen] at kept
      exact ih kept

/-- A game goes as the choices of its players settle. -/
theorem playOn_eq_of_follows {others : Player → Option (Seat Unit Position Action)}
    (follows : ∀ player, Option.Rel (Seat.Follows invariant) (seats player) (others player))
    {remaining : Nat} {record : Record Position Player Action} {effort : Effort Memory}
    (other : Effort Unit) (fit : invariant effort.memory) :
    (playOn game seats maxTurns remaining record effort).result =
      (playOn game others maxTurns remaining record other).result := by
  fun_induction playOn game seats maxTurns remaining record effort generalizing other with
  | case1 remaining record effort _ winner status =>
      rw [playOn]
      simp only [status]
  | case2 remaining record effort turns player status limit limited =>
      rw [playOn]
      simp only [status, turns] at limited ⊢
      simp only [limited]
  | case3 remaining record effort turns player status limited unseated =>
      have unfollowed : others player = none := by
        have rel := follows player
        rw [unseated] at rel
        cases others_eq : others player with
        | none => rfl
        | some seat =>
            rw [others_eq] at rel
            cases rel
      rw [playOn]
      simp only [status, turns] at limited ⊢
      simp only [limited, unfollowed]
  | case4 record effort turns player status limited seat seated =>
      rcases exists_memoryless (seated ▸ follows player) with ⟨choice, measured, -⟩
      rw [playOn]
      simp only [status, turns] at limited ⊢
      simp only [limited, measured]
  | case5 record effort turns player status limited _ seat seated fault after chosen =>
      rcases exists_memoryless (seated ▸ follows player) with ⟨choice, measured, goes⟩
      have choice_eq := (goes record.position effort fit).1
      rw [chosen] at choice_eq
      rw [playOn]
      simp only [status, turns] at limited ⊢
      simp only [limited, measured, Seat.run_memoryless, ← choice_eq]
  | case6 record effort turns player status limited _ seat seated action after chosen fault refused =>
      rcases exists_memoryless (seated ▸ follows player) with ⟨choice, measured, goes⟩
      have choice_eq := (goes record.position effort fit).1
      rw [chosen] at choice_eq
      rw [playOn]
      simp only [status, turns] at limited ⊢
      simp only [limited, measured, Seat.run_memoryless, ← choice_eq, refused]
  | case7 record effort turns player status limited _ seat seated action after chosen next played
      ih =>
      rcases exists_memoryless (seated ▸ follows player) with ⟨choice, measured, goes⟩
      have ⟨choice_eq, kept⟩ := goes record.position effort fit
      rw [chosen] at choice_eq kept
      symm
      rw [playOn]
      simp only [status, turns] at limited ⊢
      simp only [limited, measured, Seat.run_memoryless, ← choice_eq, played]
      exact (ih _ kept).symm

variable [DecidableEq Player]

omit [Worded Player] [Worded Action] in
theorem rel_seatOf {seated : List (Player × Seat Memory Position Action)}
    {choices : List (Player × (Position → Except Fault Action))}
    (goes : List.Forall₂ (fun seat choice => seat.1 = choice.1 ∧ seat.2.GoesBy invariant choice.2)
      seated choices) (player : Player) :
    Option.Rel (Seat.Follows invariant) (seatOf seated player)
      (seatOf (choices.map fun entry => (entry.1, .memoryless entry.2)) player) := by
  unfold seatOf
  rw [← List.map_reverse]
  have reversed := List.rel_reverse goes
  generalize seated.reverse = seated at reversed
  generalize choices.reverse = choices at reversed
  induction reversed with
  | nil => exact .none
  | @cons seat choice _ _ here _ ih =>
      rcases here with ⟨same, goes⟩
      by_cases found : choice.1 = player
      · simp only [List.map_cons, List.find?_cons, same, found, decide_true, Option.map_some]
        exact .some ⟨choice.2, rfl, goes⟩
      · simpa only [List.map_cons, List.find?_cons, same, found, decide_false] using ih

/-- Between players who go by the position, a game goes as their choices settle. -/
theorem playGame_eq_outcome {seated : List (Player × Seat Memory Position Action)}
    {choices : List (Player × (Position → Except Fault Action))}
    (goes : List.Forall₂ (fun seat choice => seat.1 = choice.1 ∧ seat.2.GoesBy invariant choice.2)
      seated choices) {start : Position} {effort : Effort Memory} (fit : invariant effort.memory) :
    (playGame game (seatOf seated) maxTurns start effort).result =
      game.outcome choices maxTurns start :=
  playOn_eq_of_follows (rel_seatOf goes) (.start ()) fit

end

/-! ### Agents of a roster -/

section

variable [DecidableEq Player] [DecidableEq Action] [Worded Player] [Worded Action]
  {game : Game Position Player Action} {deadlines : Deadlines} {agent : Agent Position Player Action}
  {valid : Agent Position Player Action → Prop} {choice : Position → Except Fault Action}
  {name : String} {index : Nat}

/-- Whether the agents in a class make given choices within each of some deadlines and stay in this
class. -/
def Agent.GoBy (game : Game Position Player Action) (deadlines : Deadlines)
    (valid : Agent Position Player Action → Prop) (choice : Position → Except Fault Action) :
    Prop :=
  ∀ agent count position, valid agent →
    (agent.choose game (deadlines count) position).1 = choice position ∧
      valid (agent.choose game (deadlines count) position).2.1

/-- Whether an agent's choice within each of some deadlines is a function of the position, however
often and wherever it has chosen before. -/
def Agent.ChoosesBy (agent : Agent Position Player Action) (game : Game Position Player Action)
    (deadlines : Deadlines) (choice : Position → Except Fault Action) : Prop :=
  ∃ valid, valid agent ∧ Agent.GoBy game deadlines valid choice

/-- Whether the agent of a number is in a class. -/
def Roster.Holds (roster : Roster Position Player Action) (index : Nat)
    (valid : Agent Position Player Action → Prop) : Prop :=
  ∃ agent, roster[index]? = some agent ∧ valid agent

theorem run_rosterSeat {effort : Effort (Roster Position Player Action)} {position : Position}
    (at_index : effort.memory[index]? = some agent) :
    ((rosterSeat game deadlines name index).choose position).run.run effort =
      let chosen := agent.choose game (deadlines effort.checks) position
      (chosen.1, ⟨effort.checks + 1, effort.memory.setIfInBounds index chosen.2.1,
        effort.notes ++ chosen.2.2⟩) := by
  change (rosterSeat game deadlines name index).choose position effort = _
  simp only [rosterSeat, at_index]

omit [DecidableEq Player] [DecidableEq Action] [Worded Player] [Worded Action] in
theorem Roster.Holds.set {roster : Roster Position Player Action}
    (holds : roster.Holds index valid) (other : Nat)
    (fit : other = index → valid agent) :
    Roster.Holds (roster.setIfInBounds other agent) index valid := by
  rcases holds with ⟨old, at_index, old_fit⟩
  by_cases same : other = index
  · subst same
    rcases Array.getElem?_eq_some_iff.mp at_index with ⟨bound, -⟩
    exact ⟨agent, by simp [bound], fit rfl⟩
  · exact ⟨old, by rwa [Array.getElem?_setIfInBounds_ne same], old_fit⟩

theorem rosterSeat_goesBy (go : Agent.GoBy game deadlines valid choice) :
    (rosterSeat game deadlines name index).GoesBy (·.Holds index valid) choice := by
  rintro position effort ⟨agent, at_index, fit⟩
  rcases go agent effort.checks position fit with ⟨chosen, kept⟩
  rw [run_rosterSeat at_index]
  exact ⟨chosen, Roster.Holds.set ⟨agent, at_index, fit⟩ index fun _ => kept⟩

/-- Whoever chooses, an agent stays in its class. -/
theorem rosterSeat_keeps (go : Agent.GoBy game deadlines valid choice) (other : Nat)
    (position : Position) :
    ((rosterSeat game deadlines name other).choose position).Keeps (·.Holds index valid) := by
  intro effort holds
  cases at_other : effort.memory[other]? with
  | none =>
      change ((rosterSeat game deadlines name other).choose position effort).2.memory.Holds index valid
      simpa only [rosterSeat, at_other] using holds
  | some agent =>
      rw [run_rosterSeat at_other]
      apply holds.set other
      rintro rfl
      rcases holds with ⟨old, at_index, fit⟩
      rw [at_other, Option.some.injEq] at at_index
      subst at_index
      exact (go agent effort.checks position fit).2

omit [DecidableEq Action] [Worded Player] [Worded Action] in
theorem mem_of_seatOf {Memory : Type} {seated : List (Player × Seat Memory Position Action)}
    {player : Player} {seat : Seat Memory Position Action}
    (found : seatOf seated player = some seat) : (player, seat) ∈ seated := by
  rcases Option.map_eq_some_iff.mp found with ⟨⟨other, seat⟩, first, rfl⟩
  have same := List.find?_some first
  simp only [decide_eq_true_eq] at same
  subst same
  exact List.mem_reverse.mp (List.mem_of_find?_eq_some first)

/-- A game between agents of the roster leaves every agent in its class. -/
theorem playGame_keeps_holds (go : Agent.GoBy game deadlines valid choice)
    {seated : List (Player × Seat (Roster Position Player Action) Position Action)}
    (rostered : ∀ entry ∈ seated, ∃ name other, entry.2 = rosterSeat game deadlines name other)
    {maxTurns : Option Int} {start : Position} {effort : Effort (Roster Position Player Action)}
    (holds : effort.memory.Holds index valid) :
    (playGame game (seatOf seated) maxTurns start effort).effort.memory.Holds index valid := by
  have keeps : ∀ player seat, seatOf seated player = some seat →
      ∀ position, (seat.choose position).Keeps (·.Holds index valid) := by
    intro player seat found position
    rcases rostered _ (mem_of_seatOf found) with ⟨name, other, rfl⟩
    exact rosterSeat_keeps go other position
  exact playOn_keeps keeps holds

/-- Two agents of the roster who go by the position play the game that their choices settle. -/
theorem playGame_rosterSeats {second : Nat} {otherName : String}
    {otherValid : Agent Position Player Action → Prop} {otherChoice : Position → Except Fault Action}
    (go : Agent.GoBy game deadlines valid choice)
    (otherGo : Agent.GoBy game deadlines otherValid otherChoice) (seat otherSeat : Player)
    {maxTurns : Option Int} {start : Position} {effort : Effort (Roster Position Player Action)}
    (holds : effort.memory.Holds index valid) (otherHolds : effort.memory.Holds second otherValid) :
    let played := playGame game (seatOf [(seat, rosterSeat game deadlines name index),
      (otherSeat, rosterSeat game deadlines otherName second)]) maxTurns start effort
    played.result = game.outcome [(seat, choice), (otherSeat, otherChoice)] maxTurns start ∧
      played.effort.memory.Holds index valid ∧ played.effort.memory.Holds second otherValid := by
  intro played
  have rostered : ∀ entry ∈ [(seat, rosterSeat game deadlines name index),
      (otherSeat, rosterSeat game deadlines otherName second)],
      ∃ name other, entry.2 = rosterSeat game deadlines name other := by
    simp
  refine ⟨?_, playGame_keeps_holds go rostered holds,
    playGame_keeps_holds otherGo rostered otherHolds⟩
  have goes : List.Forall₂ (fun entry choice => entry.1 = choice.1 ∧ entry.2.GoesBy
      (fun roster : Roster Position Player Action =>
        roster.Holds index valid ∧ roster.Holds second otherValid) choice.2)
      [(seat, rosterSeat game deadlines name index),
        (otherSeat, rosterSeat game deadlines otherName second)]
      [(seat, choice), (otherSeat, otherChoice)] := by
    refine .cons ⟨rfl, ?_⟩ (.cons ⟨rfl, ?_⟩ .nil)
    · exact (rosterSeat_goesBy go).and_right (rosterSeat_keeps otherGo index)
    · exact (rosterSeat_goesBy otherGo).and_left (rosterSeat_keeps go second)
  exact playGame_eq_outcome goes ⟨holds, otherHolds⟩

theorem keeps_pickWith {Memory : Type} {evaluator : Evaluator Memory Position Player}
    {deadline : Deadline} {holds : Memory → Prop} (keeps : evaluator.Keeps holds) (strategy : Strategy)
    (position : Position) :
    (Agent.pickWith name strategy game evaluator deadline position).Keeps holds := by
  unfold Agent.pickWith
  split
  · exact SearchM.keeps_throw _
  · -- The rest of the program stands in both branches of the test for a legal action.
    refine SearchM.keeps_ite (SearchM.Keeps.bind (SearchM.keeps_throw _) fun _ => ?_) ?_
    all_goals
      refine SearchM.Keeps.bind (strategy.keeps_pick keeps) ?_
      rintro (_ | action)
      · exact SearchM.keeps_throw _
      · exact SearchM.Keeps.bind (SearchM.keeps_note _ _ _) fun _ => SearchM.keeps_pure action

/-- An agent whose gauge never changes chooses by the position. -/
theorem Agent.choosesBy_of_steady {gauge : Gauge Position Player} (steady : gauge.Steady)
    (game : Game Position Player Action) (deadline : Deadline) (name : String) (strategy : Strategy)
    (omniscient : Bool) :
    (searcher name strategy gauge omniscient).ChoosesBy game (fun _ => deadline) fun position =>
      ((searcher name strategy gauge omniscient).choose game deadline position).1 := by
  refine ⟨(· = searcher name strategy gauge omniscient), rfl, ?_⟩
  rintro _ _ position rfl
  have keeps : (pickWith name strategy game (Gauge.evaluator game) deadline position).Keeps
      (· = gauge) := keeps_pickWith (steady.keeps game) strategy position
  refine ⟨rfl, ?_⟩
  change searcher name strategy _ omniscient = _
  rw [searcher.injEq]
  exact ⟨rfl, rfl, keeps (.start gauge) rfl, rfl⟩

end

end GameSearch
