import GameSearch.Proofs.Search.Exact
import GameSearch.Proofs.Search.Returns
import GameSearch.Search.Minimax

/-!
# Searches that are not cut short

Under any deadline a tree search returns a tracker, and it returns a truncated one only if the
deadline can pass. `SearchM.Completes` adds what is known of the tracker when it is not truncated,
and `SearchM.Settles` what is known when it is. Minimax completes to the exact result; cut short, it
has looked at the first few moves as if there were no others.
-/

namespace GameSearch

variable {Memory Position Player Action : Type}

/-- Whether a tracker has a property unless it is truncated, and is truncated only by a deadline
that can pass. -/
structure Tracker.Completed (deadline : Deadline) (property : Tracker Action → Prop)
    (result : Tracker Action) : Prop where
  finished : deadline.NeverPasses → result.truncated = false
  holds : result.truncated = false → property result

/-- Whether a tracker has one property if it is truncated and another one if it is not, and is
truncated only by a deadline that can pass. -/
structure Tracker.Settled (deadline : Deadline) (shortened property : Tracker Action → Prop)
    (result : Tracker Action) : Prop extends result.Completed deadline property where
  cut : result.truncated = true → shortened result

/-- Whether a search that starts with a valid memory always returns a tracker with a property,
unless it is cut short, and leaves a valid memory behind. -/
def SearchM.Completes (search : SearchM Memory (Tracker Action)) (deadline : Deadline)
    (valid : Memory → Prop) (property : Tracker Action → Prop) : Prop :=
  ∀ effort, valid effort.memory → search.Returns effort fun result after =>
    valid after.memory ∧ result.Completed deadline property

/-- Whether a search that starts with a valid memory always returns a tracker, which has one
property if it is cut short and another one if it is not, and leaves a valid memory behind. -/
def SearchM.Settles (search : SearchM Memory (Tracker Action)) (deadline : Deadline)
    (valid : Memory → Prop) (shortened property : Tracker Action → Prop) : Prop :=
  ∀ effort, valid effort.memory → search.Returns effort fun result after =>
    valid after.memory ∧ result.Settled deadline shortened property

/-- Whether an evaluator with a valid memory gives a position an integer score, the same at every
time, and keeps its memory valid. -/
def Evaluator.Computes (evaluator : Evaluator Memory Position Player) (valid : Memory → Prop)
    (side : Player) (value : Position → Int) (position : Position) : Prop :=
  ∀ memory, valid memory → ∃ after,
    evaluator.score position side memory = (.ok (.int (value position)), after) ∧ valid after

/-- A function computes. -/
theorem Evaluator.computes_ofFunction (score : Position → Player → Int) (side : Player)
    (position : Position) :
    (ofFunction fun position side => .int (score position side)).Computes (fun _ => True) side
      (score · side) position := by
  intro memory _
  exact ⟨(), rfl, trivial⟩

variable {game : Game Position Player Action} {evaluator : Evaluator Memory Position Player}
  {deadline : Deadline} {valid : Memory → Prop} {seeker mover : Player} {value : Position → Int}
  {position : Position} {plies : Nat} {shortened property weaker : Tracker Action → Prop}
  {search : SearchM Memory (Tracker Action)}

namespace Tracker

theorem Completed.mono {result : Tracker Action} (completed : result.Completed deadline property)
    (weakens : property result → weaker result) : result.Completed deadline weaker :=
  ⟨completed.finished, fun untruncated => weakens (completed.holds untruncated)⟩

theorem completed_of_holds {result : Tracker Action} (untruncated : result.truncated = false)
    (holds : property result) : result.Completed deadline property :=
  ⟨fun _ => untruncated, fun _ => holds⟩

/-- A search that stops at a check is truncated. -/
theorem completed_of_passed {check : Nat} (passed : deadline.passed check = true)
    (best : Tracker Action) : best.truncate.Completed deadline property where
  finished never := by simp [never check] at passed
  holds untruncated := by cases untruncated

/-- A search that stops at a truncated child is truncated. -/
theorem Completed.truncate {child : Tracker Action} (completed : child.Completed deadline weaker)
    (truncated : child.truncated = true) (best : Tracker Action) :
    best.truncate.Completed deadline property where
  finished never := by simp [completed.finished never] at truncated
  holds untruncated := by cases untruncated

theorem settled_of_holds {result : Tracker Action} (untruncated : result.truncated = false)
    (holds : property result) : result.Settled deadline shortened property :=
  ⟨completed_of_holds untruncated holds, fun truncated => by simp [untruncated] at truncated⟩

end Tracker

theorem scoreLeaf_returns (computes : evaluator.Computes valid seeker value position)
    {effort : Effort Memory} (fit : valid effort.memory) :
    (scoreLeaf evaluator seeker position : SearchM Memory (Tracker Action)).Returns effort
      fun result after => valid after.memory ∧ result = .start (.int (value position)) := by
  rcases computes effort.memory fit with ⟨after, scored, kept⟩
  simp only [scoreLeaf, SearchM.returns_bind, SearchM.returns_evaluate, SearchM.returns_pure]
  exact ⟨_, after, scored, kept, rfl⟩

theorem scoreLeaf_completes (computes : evaluator.Computes valid seeker value position) :
    (scoreLeaf evaluator seeker position : SearchM Memory (Tracker Action)).Completes deadline valid
      fun result => result = .start (.int (value position)) := by
  intro effort fit
  refine (scoreLeaf_returns computes fit).mono ?_
  rintro _ after ⟨kept, rfl⟩
  exact ⟨kept, Tracker.completed_of_holds rfl rfl⟩

theorem SearchM.settles_pure {result : Tracker Action} (untruncated : result.truncated = false)
    (holds : property result) : (pure result : SearchM Memory (Tracker Action)).Settles deadline
      valid shortened property :=
  fun _ fit => returns_pure.mpr ⟨fit, Tracker.settled_of_holds untruncated holds⟩

namespace SearchM.Completes

theorem mono (completes : search.Completes deadline valid property)
    (weakens : ∀ result, property result → weaker result) :
    search.Completes deadline valid weaker :=
  fun effort fit => (completes effort fit).mono fun result _ completed =>
    ⟨completed.1, completed.2.mono (weakens result)⟩

end SearchM.Completes

namespace SearchM.Settles

theorem completes (settles : search.Settles deadline valid shortened property) :
    search.Completes deadline valid property :=
  fun effort fit => (settles effort fit).mono fun _ _ settled =>
    ⟨settled.1, settled.2.toCompleted⟩

theorem mono {shorter : Tracker Action → Prop}
    (settles : search.Settles deadline valid shortened property)
    (shortens : ∀ result, shortened result → shorter result)
    (weakens : ∀ result, property result → weaker result) :
    search.Settles deadline valid shorter weaker :=
  fun effort fit => (settles effort fit).mono fun result _ settled =>
    ⟨settled.1, settled.2.toCompleted.mono (weakens result),
      fun truncated => shortens result (settled.2.cut truncated)⟩

/-- A best tracker that has an action is the answer; else the position is scored as it stands. -/
theorem settle (settles : search.Settles deadline valid shortened property)
    (value : Position → Int)
    (computes : ∀ best, property best → best.hasAction = false →
      evaluator.Computes valid seeker value position) :
    (do
      let best ← search
      if best.truncated || best.hasAction then return best
      scoreLeaf evaluator seeker position : SearchM Memory (Tracker Action)).Settles deadline
        valid shortened fun result => ∃ best, property best ∧
          result = if best.hasAction then best else .start (.int (value position)) := by
  intro effort fit
  rw [returns_bind]
  refine (settles effort fit).mono ?_
  rintro best after ⟨kept, settled⟩
  split
  · rename_i answered
    refine returns_pure.mpr ⟨kept, ⟨settled.finished, fun untruncated => ?_⟩, settled.cut⟩
    rw [untruncated, Bool.false_or] at answered
    exact ⟨best, settled.holds untruncated, by rw [if_pos answered]⟩
  · rename_i unanswered
    simp only [Bool.or_eq_true, not_or, Bool.not_eq_true] at unanswered
    have holds := settled.holds unanswered.1
    refine (scoreLeaf_returns (computes best holds unanswered.2) kept).mono ?_
    rintro _ last ⟨kept, rfl⟩
    exact ⟨kept, Tracker.settled_of_holds rfl ⟨best, holds, by simp [unanswered.2]⟩⟩

/-- The deadline is asked, then a child is searched, then the rest. -/
theorem child {child : Position → SearchM Memory (Tracker Action)}
    {rest : Tracker Action → SearchM Memory (Tracker Action)} {best : Tracker Action}
    {action : Action} {next : Position} (played : game.play position mover action = .ok next)
    (searched : (child next).Completes deadline valid weaker)
    (stopped : shortened best.truncate)
    (continued : ∀ result, weaker result →
      (rest result).Settles deadline valid shortened property) :
    (do
      if ← SearchM.expired deadline then return best.truncate
      let result ← child (← game.play position mover action)
      if result.truncated then return best.truncate
      rest result : SearchM Memory (Tracker Action)).Settles deadline valid shortened property := by
  intro effort fit
  simp only [returns_bind, returns_expired]
  split
  · rename_i passed
    exact returns_pure.mpr ⟨fit, Tracker.completed_of_passed passed best, fun _ => stopped⟩
  · simp only [returns_bind, returns_lift]
    refine ⟨next, played, (searched { effort with checks := effort.checks + 1 } fit).mono ?_⟩
    rintro result after ⟨kept, completed⟩
    split
    · rename_i truncated
      exact returns_pure.mpr ⟨kept, completed.truncate truncated best, fun _ => stopped⟩
    · rename_i untruncated
      exact continued result (completed.holds (by simpa using untruncated)) after kept

end SearchM.Settles

theorem searchMoves_settles {child : Position → SearchM Memory (Tracker Action)}
    (exact : Position → Number) (aim : Aim)
    (searched : ∀ action next, game.play position mover action = .ok next →
      (child next).Completes deadline valid fun result => result.score = exact next)
    (moves : Moves Action)
    (playable : ∀ action ∈ moves.toList, ∃ next, game.play position mover action = .ok next)
    (best : Tracker Action) (complete : best.truncated = false) :
    (searchMoves game deadline child position mover aim moves best).Settles deadline valid
      (fun result => ∃ count < moves.toList.length, result = (best.insertAll aim
        ((game.outcomes position mover (moves.toList.take count)).map
          fun entry => (entry.1, exact entry.2))).truncate)
      fun result => result = best.insertAll aim ((game.outcomes position mover moves.toList).map
        fun entry => (entry.1, exact entry.2)) := by
  induction moves generalizing best with
  | done => exact SearchM.settles_pure complete rfl
  | next action rest ih =>
      simp only [Moves.toList_next, List.forall_mem_cons] at playable
      rcases playable.1 with ⟨next, played⟩
      refine SearchM.Settles.child played (searched action next played)
        ⟨0, Nat.zero_lt_succ _, rfl⟩ ?_
      intro result score_eq
      rw [score_eq]
      refine (ih () playable.2 (best.insert aim action (exact next)) (by simpa)).mono ?_ ?_
      · rintro final ⟨count, fewer, rfl⟩
        refine ⟨count + 1, Nat.succ_lt_succ fewer, ?_⟩
        rw [Moves.toList_next, List.take_succ_cons, Game.outcomes_cons played, List.map_cons,
          Tracker.insertAll_cons]
      · rintro final rfl
        rw [Moves.toList_next, Game.outcomes_cons played, List.map_cons, Tracker.insertAll_cons]

variable [DecidableEq Player]

/-- One ply of minimax over children that complete: cut short, it holds the best of the first few
moves, by their exact results. -/
theorem minimax_settles_of_turn (turn : game.status position = .turn mover)
    (childCompletes : ∀ action next, game.play position mover action = .ok next →
      (minimax game evaluator deadline seeker plies next).Completes deadline valid
        fun result => result = game.solve value seeker plies next)
    (computes : (∀ player, (game.legal position player).toList = []) →
      evaluator.Computes valid seeker value position) :
    (minimax game evaluator deadline seeker (plies + 1) position).Settles deadline valid
      (fun result => ∃ count < (game.legal position mover).toList.length,
        result = (Tracker.bestOf (Aim.ofMover seeker mover)
          (fun next => (game.solve value seeker plies next).score)
          (game.outcomes position mover
            ((game.legal position mover).toList.take count))).truncate)
      fun result => result = game.solve value seeker (plies + 1) position := by
  simp only [minimax, turn]
  let worth (next : Position) : Number := (game.solve value seeker plies next).score
  have searched := searchMoves_settles worth (Aim.ofMover seeker mover)
    (fun action next played => (childCompletes action next played).mono fun _ => congrArg _)
    (game.legal position mover) (fun action legal => Game.play_of_mem_legal legal)
    (.start (Aim.ofMover seeker mover).baseline) rfl
  refine (searched.settle value ?_).mono (fun _ => id) ?_
  · intro best best_eq none
    exact computes (Game.legal_eq_nil_of_bestOf turn best_eq none)
  · rintro result ⟨best, best_eq, rfl⟩
    exact (Game.solve_of_turn turn best_eq).symm

/-- Minimax finds the exact result unless it is cut short. -/
theorem minimax_completes
    (computes : game.AtLeaves (evaluator.Computes valid seeker value) plies position) :
    (minimax game evaluator deadline seeker plies position).Completes deadline valid
      fun result => result = game.solve value seeker plies position := by
  induction plies generalizing position with
  | zero => exact scoreLeaf_completes computes
  | succ plies ih =>
      rcases status : game.status position with mover | winner
      · exact (minimax_settles_of_turn status
          (fun action next played => ih (computes.2 mover action next played)) computes.1).completes
      · simp only [minimax, status, Game.solve_of_over status]
        exact scoreLeaf_completes (computes.1 (Game.legal_eq_nil_of_over status))

end GameSearch
