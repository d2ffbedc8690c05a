import GameSearch.Proofs.Search.Correspondence
import GameSearch.Proofs.Search.Pruning

/-!
# Scores outside the window

Alpha-beta search inside a window answers with the best score it has seen, even if this score lies
outside the window. Such an answer is a bound on the minimax score: at or below the lower end it is
at least the minimax score, at or above the upper end it is at most the minimax score. Strictly
inside the window the answer is the minimax score itself, with minimax's action.

Scores may be integers or doubles of a whole value. A double compares like the integer it stands
for, so the searches run side by side with searches that see integers alone, where
`alphaBeta_completes` knows the answer.
-/

namespace GameSearch

namespace Number

variable {left right counterpart other : Number}

/-- Whether two numbers have the same exact value, be they integers or doubles. -/
def Agrees (number other : Number) : Prop := other.extent = number.extent

theorem Agrees.less_eq (first : left.Agrees counterpart) (second : right.Agrees other) :
    counterpart.less other = left.less right := by
  rw [less_eq_extent, less_eq_extent, first, second]

theorem Agrees.same_eq (first : left.Agrees counterpart) (second : right.Agrees other) :
    counterpart.same other = left.same right := by
  rw [same_eq_extent, same_eq_extent, first, second]

theorem Agrees.atMost_eq (first : left.Agrees counterpart) (second : right.Agrees other) :
    counterpart.atMost other = left.atMost right := by
  rw [atMost, atMost, first.less_eq second, first.same_eq second]

theorem correspondence_agrees : Correspondence id Agrees where
  opposite _ := rfl
  baseline _ := rfl
  prefers aim _ _ _ _ first second := by
    cases aim with
    | greatest => exact second.less_eq first
    | least => exact first.less_eq second
  same _ _ _ _ first second := first.same_eq second

end Number

variable {Memory OtherMemory Position Player Action : Type}

/-- Whether an evaluator with a valid memory scores every position with a whole number, the same at
every time, and keeps its memory valid. The score may be an integer or a double. -/
def Evaluator.Measures (evaluator : Evaluator Memory Position Player) (valid : Memory → Prop)
    (side : Player) (value : Position → Int) : Prop :=
  ∀ position memory, valid memory → ∃ score after,
    evaluator.score position side memory = (.ok score, after) ∧ valid after ∧
      score.extent = .finite (value position)

/-- What a search inside a window promises of its answer, beside the exact one. -/
structure Window.FailsSoft (window : Window) (exact found : Tracker Action) : Prop where
  /-- At or below the lower end, the answer lies between the exact score and this end. -/
  low : exact.score.atMost window.alpha = true →
    exact.score.atMost found.score = true ∧ found.score.atMost window.alpha = true
  /-- At or above the upper end, the answer lies between this end and the exact score. -/
  high : window.beta.atMost exact.score = true →
    window.beta.atMost found.score = true ∧ found.score.atMost exact.score = true
  /-- Strictly inside the window the exact score is found, and the action that goes with it. -/
  inside : window.alpha.less exact.score = true → exact.score.less window.beta = true →
    found.score.same exact.score = true ∧ found.hasAction = exact.hasAction ∧
      found.action = exact.action

variable {game : Game Position Player Action} {evaluator : Evaluator Memory Position Player}
  {deadline : Deadline} {valid : Memory → Prop} {related : Number → Number → Prop}
  {seeker : Player} {value : Position → Int} {position : Position} {plies : Nat} {window : Window}

namespace Window

variable {exact found counterpart other : Tracker Action}

/-- For integers the law on the line is the law of comparisons. -/
theorem Approximates.failsSoft (approximates : window.Approximates exact found)
    (isOpen : window.IsOpen) (exactInteger : exact.score.IsInteger)
    (foundInteger : found.score.IsInteger) : window.FailsSoft exact found := by
  have alphaDefined : window.alpha.IsDefined := isOpen.isDefined_near .greatest
  have betaDefined : window.beta.IsDefined := isOpen.isDefined_far .greatest
  have exactDefined := exactInteger.isDefined
  have foundDefined := foundInteger.isDefined
  constructor
  · rw [Number.atMost_iff exactDefined alphaDefined, Number.atMost_iff exactDefined foundDefined,
      Number.atMost_iff foundDefined alphaDefined]
    exact approximates.low
  · rw [Number.atMost_iff betaDefined exactDefined, Number.atMost_iff betaDefined foundDefined,
      Number.atMost_iff foundDefined exactDefined]
    exact approximates.high
  · rw [Number.less_iff alphaDefined exactDefined, Number.less_iff exactDefined betaDefined]
    intro above below
    rw [approximates.inside above below]
    refine ⟨?_, rfl, rfl⟩
    rcases exactInteger with ⟨integer, score_eq⟩
    rw [score_eq]
    exact beq_self_eq_true integer

/-- The law speaks of exact values and actions alone. -/
theorem FailsSoft.of_corresponds (failsSoft : window.FailsSoft counterpart other)
    (exactAgrees : exact.Corresponds Number.Agrees counterpart)
    (foundAgrees : found.Corresponds Number.Agrees other) : window.FailsSoft exact found := by
  have alpha : window.alpha.Agrees window.alpha := rfl
  have beta : window.beta.Agrees window.beta := rfl
  have exactScore := exactAgrees.score
  have foundScore := foundAgrees.score
  constructor
  · rw [← exactScore.atMost_eq alpha, ← exactScore.atMost_eq foundScore,
      ← foundScore.atMost_eq alpha]
    exact failsSoft.low
  · rw [← beta.atMost_eq exactScore, ← beta.atMost_eq foundScore, ← foundScore.atMost_eq exactScore]
    exact failsSoft.high
  · rw [← alpha.less_eq exactScore, ← exactScore.less_eq beta, ← foundScore.same_eq exactScore,
      ← foundAgrees.hasAction_eq, ← exactAgrees.hasAction_eq, ← foundAgrees.action_eq,
      ← exactAgrees.action_eq]
    exact failsSoft.inside

end Window

/-- A search alongside one that completes, under a deadline that never passes. -/
theorem SearchM.Alongside.yields_of_completes {search : SearchM Memory (Tracker Action)}
    {other : SearchM OtherMemory (Tracker Action)} {linked : Memory → OtherMemory → Prop}
    {fit : OtherMemory → Prop} {property : Tracker Action → Prop}
    (alongside : search.Alongside other linked (Tracker.Corresponds related))
    (completes : other.Completes deadline fit property) (never : deadline.NeverPasses)
    {effort : Effort Memory} {otherEffort : Effort OtherMemory}
    (linkedEfforts : effort.Linked linked otherEffort) (start : fit otherEffort.memory) :
    ∃ result after counterpart, search.Yields effort result after ∧ result.truncated = false ∧
      result.Corresponds related counterpart ∧ property counterpart := by
  rcases alongside effort otherEffort linkedEfforts with
    ⟨result, counterpart, after, otherAfter, ran, otherRan, -, corresponds⟩
  rcases completes otherEffort start with ⟨value, last, completed, -, holds⟩
  rw [SearchM.Yields, completed] at otherRan
  cases otherRan
  have untruncated := holds.finished never
  exact ⟨result, after, counterpart, ran, corresponds.truncated_eq.symm.trans untruncated,
    corresponds, holds.holds untruncated⟩

/-- The evaluator that scores with integers what another one measures. -/
def Evaluator.counting (Player : Type) (value : Position → Int) : Evaluator Unit Position Player :=
  ofFunction fun position _ => .int (value position)

theorem Evaluator.Measures.scoresAlike (measures : evaluator.Measures valid seeker value) :
    evaluator.ScoresAlike (counting Player value) (fun memory _ => valid memory) Number.Agrees
      seeker seeker := by
  intro position memory _ fit
  rcases measures position memory fit with ⟨score, after, scored, kept, extent_eq⟩
  exact ⟨score, .int (value position), after, (), scored, rfl, kept, extent_eq.symm⟩

theorem Effort.Linked.counting {effort : Effort Memory} (fit : valid effort.memory) :
    effort.Linked (fun memory (_ : Unit) => valid memory) ⟨effort.checks, (), effort.notes⟩ :=
  ⟨rfl, rfl, fit⟩

variable [DecidableEq Player]

/-- The law of the window, for every game, depth and open window: with a deadline that never passes,
minimax and alpha-beta search both return. Where the minimax score lies outside the window,
alpha-beta search finds a bound between the nearer end and this score; strictly inside, it finds the
score itself with minimax's action. -/
theorem alphaBeta_failsSoft (measures : evaluator.Measures valid seeker value)
    (never : deadline.NeverPasses) (isOpen : window.alpha.less window.beta = true) (plies : Nat)
    (position : Position) {effort otherEffort : Effort Memory} (fit : valid effort.memory)
    (otherFit : valid otherEffort.memory) :
    ∃ exact after found otherAfter,
      (minimax game evaluator deadline seeker plies position).Yields effort exact after ∧
      (alphaBeta game evaluator deadline seeker plies window position).Yields otherEffort found
        otherAfter ∧
      exact.truncated = false ∧ found.truncated = false ∧ window.FailsSoft exact found := by
  have computes : game.AtLeaves ((Evaluator.counting Player value).Computes (fun _ => True) seeker
      value) plies position :=
    Game.atLeaves_of_forall
      (Evaluator.computes_ofFunction (fun position _ => value position) seeker)
  have plain : (minimax game evaluator deadline seeker plies position).Alongside
      (minimax game (.counting Player value) deadline seeker plies position)
      (fun memory _ => valid memory) (Tracker.Corresponds Number.Agrees) :=
    minimax_alongside Number.correspondence_agrees measures.scoresAlike fun _ _ _ => rfl
  have pruned : (alphaBeta game evaluator deadline seeker plies window position).Alongside
      (alphaBeta game (.counting Player value) deadline seeker plies window position)
      (fun memory _ => valid memory) (Tracker.Corresponds Number.Agrees) :=
    alphaBeta_alongside Number.correspondence_agrees measures.scoresAlike (fun _ _ _ => rfl)
      fun _ => rfl
  rcases plain.yields_of_completes (minimax_completes computes) never (.counting fit) trivial with
    ⟨exact, after, _, ran, exact_whole, exactAgrees, rfl⟩
  rcases pruned.yields_of_completes (alphaBeta_completes isOpen computes) never (.counting otherFit)
    trivial with
    ⟨found, otherAfter, counterpart, otherRan, found_whole, foundAgrees, approximates, integer⟩
  have failsSoft := approximates.failsSoft isOpen Game.isInteger_solve integer
  exact ⟨exact, after, found, otherAfter, ran, otherRan, exact_whole, found_whole,
    failsSoft.of_corresponds exactAgrees foundAgrees⟩

/-- Two plies of Nim with integers and doubles as scores, inside a window below the minimax
score. -/
theorem alphaBeta_failsSoft_nim :
    let start : Nim.Position := ⟨[2, 1], .one, none, false, by simp, by simp⟩
    let two : Number := .real (Float.ofBits 0x4000000000000000)
    let evaluator : Evaluator Unit Nim.Position Nim.Player :=
      .ofFunction fun position _ => if position.turn = .one then two else .int (-1)
    let window : Window := ⟨.below, .real (Float.ofBits 0x3FE0000000000000)⟩
    evaluator.Measures (fun _ => True) .one
        (fun position => if position.turn = .one then 2 else -1) ∧
      Deadline.never.NeverPasses ∧ window.alpha.less window.beta = true ∧
      ∃ exact after found otherAfter,
        (minimax Nim.game evaluator .never .one 2 start).Yields (.start ()) exact after ∧
        (alphaBeta Nim.game evaluator .never .one 2 window start).Yields (.start ()) found
          otherAfter ∧
        exact.truncated = false ∧ found.truncated = false ∧ window.FailsSoft exact found := by
  intro start two evaluator window
  have measures : evaluator.Measures (fun _ => True) .one
      fun position => if position.turn = .one then 2 else -1 := by
    intro position _ _
    have whole : two.extent = .finite (2 : Int) := by decide
    refine ⟨_, (), rfl, trivial, ?_⟩
    by_cases first : position.turn = .one
    · simpa only [if_pos first] using whole
    · simp only [if_neg first, Number.extent_int]
  have isOpen : window.alpha.less window.beta = true := by decide
  exact ⟨measures, Deadline.never_neverPasses, isOpen,
    alphaBeta_failsSoft measures Deadline.never_neverPasses isOpen 2 start trivial trivial⟩

end GameSearch
