import GameSearch.Proofs.Search.Best
import GameSearch.Proofs.Search.Returns
import GameSearch.Search.DepthLimited

/-!
# When a search is cut short

A tree search asks its deadline before each child. Whatever the evaluator does, the result is
truncated exactly if one of these questions was answered with yes: a child that was cut short cuts
its parent short. If all of them were answered with no, the search cannot tell its deadline from one
that never passes.
-/

namespace GameSearch

variable {Memory Position Player Action : Type}

/-- Whether one of the questions between two counts of questions is answered with yes. -/
def Deadline.PassesBetween (deadline : Deadline) (before after : Nat) : Prop :=
  ∃ check, before < check ∧ check ≤ after ∧ deadline.passed check = true

namespace Deadline

variable {deadline : Deadline} {before middle after last : Nat}

theorem not_passesBetween_self : ¬deadline.PassesBetween before before := by
  rintro ⟨check, later, earlier, -⟩
  omega

theorem PassesBetween.mono (passes : deadline.PassesBetween middle after) (first : before ≤ middle)
    (second : after ≤ last) : deadline.PassesBetween before last := by
  rcases passes with ⟨check, later, earlier, passed⟩
  exact ⟨check, first.trans_lt later, earlier.trans second, passed⟩

theorem passesBetween_succ :
    deadline.PassesBetween before (before + 1) ↔ deadline.passed (before + 1) = true := by
  constructor
  · rintro ⟨check, later, earlier, passed⟩
    rwa [show before + 1 = check by omega]
  · exact fun passed => ⟨before + 1, Nat.lt_succ_self before, le_rfl, passed⟩

theorem passesBetween_trans (first : before ≤ middle) (second : middle ≤ after) :
    deadline.PassesBetween before after ↔
      deadline.PassesBetween before middle ∨ deadline.PassesBetween middle after := by
  constructor
  · rintro ⟨check, later, earlier, passed⟩
    rcases Nat.lt_or_ge middle check with beyond | within
    · exact .inr ⟨check, beyond, earlier, passed⟩
    · exact .inl ⟨check, later, within, passed⟩
  · rintro (passes | passes)
    · exact passes.mono le_rfl second
    · exact passes.mono first le_rfl

end Deadline

/-- How a run of a search goes by its deadline. -/
structure Heeded (search : Deadline → SearchM Memory (Tracker Action)) (deadline : Deadline)
    (effort : Effort Memory) (result : Tracker Action) (after : Effort Memory) : Prop where
  checks_le : effort.checks ≤ after.checks
  truncated_iff : result.truncated = true ↔ deadline.PassesBetween effort.checks after.checks
  undisturbed : result.truncated = false → (search .never).Yields effort result after

/-- Whether a search that takes a deadline goes by it in every run. -/
def Heeds (search : Deadline → SearchM Memory (Tracker Action)) : Prop :=
  ∀ deadline effort result after, (search deadline).Yields effort result after →
    Heeded search deadline effort result after

variable {game : Game Position Player Action} {evaluator : Evaluator Memory Position Player}
  {seeker mover : Player} {position : Position} {plies : Nat} {aim : Aim}

theorem heeds_pure {best : Tracker Action} (complete : best.truncated = false) :
    Heeds fun _ => (pure best : SearchM Memory (Tracker Action)) := by
  intro deadline effort result after ran
  rcases SearchM.yields_pure.mp ran with ⟨rfl, rfl⟩
  refine ⟨le_rfl, ?_, fun _ => ran⟩
  simp [complete, Deadline.not_passesBetween_self]

theorem heeds_scoreLeaf :
    Heeds fun _ => (scoreLeaf evaluator seeker position : SearchM Memory (Tracker Action)) := by
  intro deadline effort result after ran
  have leaf := ran
  rw [scoreLeaf, SearchM.yields_bind] at leaf
  rcases leaf with ⟨score, between, scored, done⟩
  rcases SearchM.yields_pure.mp done with ⟨rfl, rfl⟩
  have unasked : between.checks = effort.checks := by
    rcases congrArg Prod.snd scored with rfl
    rfl
  refine ⟨unasked.ge, ?_, fun _ => ran⟩
  simp [Tracker.start, unasked, Deadline.not_passesBetween_self]

/-- The deadline is asked, then a child is searched, then the rest. -/
theorem heeds_child {child : Deadline → Position → SearchM Memory (Tracker Action)}
    {rest : Deadline → Tracker Action → SearchM Memory (Tracker Action)}
    (played : Except Fault Position) (best : Tracker Action)
    (child_heeds : ∀ next, Heeds fun deadline => child deadline next)
    (rest_heeds : ∀ result, result.truncated = false → Heeds fun deadline => rest deadline result) :
    Heeds fun deadline => (do
      if ← SearchM.expired deadline then return best.truncate
      let result ← child deadline (← played)
      if result.truncated then return best.truncate
      rest deadline result : SearchM Memory (Tracker Action)) := by
  intro deadline effort result after ran
  rw [SearchM.yields_bind] at ran
  rcases ran with ⟨passed, asked, checked, ran⟩
  rcases SearchM.yields_expired.mp checked with ⟨rfl, rfl⟩
  have asked_le : effort.checks ≤ effort.checks + 1 := Nat.le_succ _
  cases passed : deadline.passed (effort.checks + 1) with
  | true =>
      simp only [passed, if_true] at ran
      rcases SearchM.yields_pure.mp ran with ⟨rfl, rfl⟩
      refine ⟨asked_le, ?_, fun untruncated => by cases untruncated⟩
      simp [Tracker.truncate, Deadline.passesBetween_succ, passed]
  | false =>
      simp only [passed, Bool.false_eq_true, if_false] at ran
      rcases SearchM.yields_bind.mp ran with ⟨next, _, lifted, ran⟩
      rcases SearchM.yields_lift.mp lifted with ⟨played_eq, rfl⟩
      rcases SearchM.yields_bind.mp ran with ⟨found, between, searched, ran⟩
      have child_heeded := child_heeds next _ _ _ _ searched
      have child_le := child_heeded.checks_le
      have unpassed : ¬deadline.PassesBetween effort.checks (effort.checks + 1) := by
        simp [Deadline.passesBetween_succ, passed]
      cases truncated : found.truncated with
      | true =>
          simp only [truncated, if_true] at ran
          rcases SearchM.yields_pure.mp ran with ⟨rfl, rfl⟩
          refine ⟨asked_le.trans child_le, ?_, fun untruncated => by cases untruncated⟩
          have cut := child_heeded.truncated_iff.mp truncated
          simp [Tracker.truncate, Deadline.passesBetween_trans asked_le child_le, cut]
      | false =>
          simp only [truncated, Bool.false_eq_true, if_false] at ran
          have rest_heeded := rest_heeds found truncated _ _ _ _ ran
          have rest_le := rest_heeded.checks_le
          have child_unpassed := mt child_heeded.truncated_iff.mpr (by simp [truncated])
          refine ⟨(asked_le.trans child_le).trans rest_le, ?_, fun untruncated => ?_⟩
          · rw [Deadline.passesBetween_trans asked_le (child_le.trans rest_le),
              Deadline.passesBetween_trans child_le rest_le, rest_heeded.truncated_iff]
            tauto
          · rw [SearchM.yields_bind]
            refine ⟨false, _, SearchM.yields_expired.mpr ⟨rfl, rfl⟩, ?_⟩
            simp only [Bool.false_eq_true, if_false, SearchM.yields_bind]
            refine ⟨next, _, SearchM.yields_lift.mpr ⟨played_eq, rfl⟩, found, between,
              child_heeded.undisturbed truncated, ?_⟩
            simp only [truncated, Bool.false_eq_true, if_false]
            exact rest_heeded.undisturbed untruncated

/-- A position without an action is scored as it stands. -/
theorem heeds_settle {search : Deadline → SearchM Memory (Tracker Action)} (heeds : Heeds search) :
    Heeds fun deadline => (do
      let best ← search deadline
      if best.truncated || best.hasAction then return best
      scoreLeaf evaluator seeker position : SearchM Memory (Tracker Action)) := by
  intro deadline effort result after ran
  rcases SearchM.yields_bind.mp ran with ⟨best, between, searched, ran⟩
  have heeded := heeds _ _ _ _ searched
  split at ran
  · rename_i answered
    rcases SearchM.yields_pure.mp ran with ⟨rfl, rfl⟩
    refine ⟨heeded.checks_le, heeded.truncated_iff, fun untruncated => ?_⟩
    refine SearchM.yields_bind.mpr ⟨best, between, heeded.undisturbed untruncated, ?_⟩
    rw [if_pos answered]
    exact ran
  · rename_i unanswered
    have untruncated : best.truncated = false := by
      cases truncated : best.truncated <;> simp_all
    have unpassed := mt heeded.truncated_iff.mpr (by simp [untruncated])
    have leaf := heeds_scoreLeaf deadline _ _ _ ran
    refine ⟨heeded.checks_le.trans leaf.checks_le, ?_, fun complete => ?_⟩
    · rw [Deadline.passesBetween_trans heeded.checks_le leaf.checks_le, leaf.truncated_iff]
      tauto
    · refine SearchM.yields_bind.mpr ⟨best, between, heeded.undisturbed untruncated, ?_⟩
      rw [if_neg unanswered]
      exact leaf.undisturbed complete

theorem heeds_searchMoves {child : Deadline → Position → SearchM Memory (Tracker Action)}
    (child_heeds : ∀ next, Heeds fun deadline => child deadline next) (moves : Moves Action)
    (best : Tracker Action) (complete : best.truncated = false) :
    Heeds fun deadline =>
      searchMoves game deadline (child deadline) position mover aim moves best := by
  induction moves generalizing best with
  | done => exact heeds_pure complete
  | next action rest ih =>
      refine heeds_child (game.play position mover action) best child_heeds ?_
      intro result _
      exact ih () (best.insert aim action result.score) (by simpa)

theorem heeds_searchMovesWithin
    {child : Deadline → Window → Position → SearchM Memory (Tracker Action)}
    (child_heeds : ∀ window next, Heeds fun deadline => child deadline window next)
    (moves : Moves Action) (window : Window) (best : Tracker Action)
    (complete : best.truncated = false) :
    Heeds fun deadline =>
      searchMovesWithin game deadline (child deadline) position mover aim moves window best := by
  induction moves generalizing best window with
  | done => exact heeds_pure complete
  | next action rest ih =>
      refine heeds_child (game.play position mover action) best (child_heeds window) ?_
      intro result _
      have inserted : (best.insert aim action result.score).truncated = false := by simpa
      by_cases closed : (window.narrow result.score aim).isClosed = true
      · simp only [closed, if_true]
        exact heeds_pure inserted
      · simp only [closed]
        exact ih () (window.narrow result.score aim) (best.insert aim action result.score) inserted

variable [DecidableEq Player]

theorem heeds_minimax : Heeds fun deadline =>
    minimax game evaluator deadline seeker plies position := by
  induction plies generalizing position with
  | zero => exact heeds_scoreLeaf
  | succ plies ih =>
      rcases status : game.status position with mover | winner
      · simp only [minimax, status]
        exact heeds_settle (heeds_searchMoves (fun _ => ih) _ _ rfl)
      · simp only [minimax, status]
        exact heeds_scoreLeaf

theorem heeds_alphaBeta {window : Window} : Heeds fun deadline =>
    alphaBeta game evaluator deadline seeker plies window position := by
  induction plies generalizing position window with
  | zero => exact heeds_scoreLeaf
  | succ plies ih =>
      rcases status : game.status position with mover | winner
      · simp only [alphaBeta, status]
        exact heeds_settle (heeds_searchMovesWithin (fun _ _ => ih) _ _ _ rfl)
      · simp only [alphaBeta, status]
        exact heeds_scoreLeaf

namespace TreeMethod

theorem heeds_search (method : TreeMethod) : Heeds fun deadline =>
    method.search game evaluator deadline seeker plies position := by
  cases method with
  | minimax => exact heeds_minimax
  | alphaBeta => exact heeds_alphaBeta

/-- Whatever the evaluator does, a search to a depth is cut short exactly if its deadline passes
while it runs. -/
theorem heeds_run (method : TreeMethod) {depth : Int} : Heeds fun deadline =>
    method.run game evaluator deadline depth seeker position := by
  unfold TreeMethod.run
  by_cases unlimited : depth < 0 ∧ game.height position = none
  · simp only [if_pos unlimited]
    exact method.heeds_search
  · simp only [if_neg unlimited]
    exact method.heeds_search

end TreeMethod

end GameSearch
