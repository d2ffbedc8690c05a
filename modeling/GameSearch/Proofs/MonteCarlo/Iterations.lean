import GameSearch.MonteCarlo.Search
import GameSearch.Proofs.Search.Returns
import Mathlib.Order.Nat

/-!
# The iterations of a search

Before each iteration a search looks at its limit and then asks its deadline once. So the number of
iterations is settled by the two alone: it is the limit, or one less than the number of the first
question that the deadline answers with yes, whichever is less. What one iteration upholds holds
after all of them, unless a reward is too large to be counted, which breaks the search off.
-/

namespace GameSearch

variable {Memory Position Player Action : Type}

namespace Deadline

variable {deadline : Deadline} {asked remaining count other check : Nat}

/-- Whether a deadline that has been asked some questions lets exactly so many of the remaining
iterations through. -/
structure Admits (deadline : Deadline) (asked remaining count : Nat) : Prop where
  count_le : count ≤ remaining
  before : ∀ check, asked < check → check ≤ asked + count → deadline.passed check = false
  stops : count = remaining ∨ deadline.passed (asked + count + 1) = true

theorem admits_zero (deadline : Deadline) (asked : Nat) : deadline.Admits asked 0 0 :=
  ⟨le_rfl, fun check after before => by omega, .inl rfl⟩

theorem admits_zero_of_passed (passed : deadline.passed (asked + 1) = true) (remaining : Nat) :
    deadline.Admits asked remaining 0 :=
  ⟨Nat.zero_le remaining, fun check after before => by omega, .inr passed⟩

theorem Admits.succ (admits : deadline.Admits (asked + 1) remaining count)
    (unpassed : deadline.passed (asked + 1) = false) :
    deadline.Admits asked (remaining + 1) (count + 1) where
  count_le := Nat.succ_le_succ admits.count_le
  before check after before := by
    rcases Nat.lt_or_eq_of_le (Nat.succ_le_of_lt after) with later | rfl
    · exact admits.before check later (by omega)
    · exact unpassed
  stops := by
    rcases admits.stops with rfl | passed
    · exact .inl rfl
    · right
      rwa [show asked + (count + 1) + 1 = asked + 1 + count + 1 by omega]

/-- There is no choice in when the iterations stop. -/
theorem Admits.unique (admits : deadline.Admits asked remaining count)
    (others : deadline.Admits asked remaining other) : count = other := by
  have le_of : ∀ {fewer more}, deadline.Admits asked remaining fewer →
      deadline.Admits asked remaining more → more ≤ fewer := by
    intro fewer more first second
    rcases first.stops with rfl | passed
    · exact second.count_le
    · by_contra less
      have unpassed := second.before (asked + fewer + 1) (by omega) (by omega)
      rw [passed] at unpassed
      cases unpassed
  exact Nat.le_antisymm (le_of others admits) (le_of admits others)

theorem passed_eq_false (asking : 0 < check)
    (early : ∀ first, deadline.horizon = some first → check < first) :
    deadline.passed check = false := by
  by_contra passed
  rw [Bool.not_eq_false] at passed
  rcases deadline.horizon_le check asking passed with ⟨first, horizon, le⟩
  exact absurd (early first horizon) (Nat.not_lt.mpr le)

end Deadline

/-- How many iterations a search performs, if its limit or its deadline bounds them. -/
def iterationCount (deadline : Deadline) (maxIterations : Option Int) : Option Nat :=
  match maxIterations, deadline.horizon with
  | none, none => none
  | some limit, none => some limit.toNat
  | none, some first => some (first - 1)
  | some limit, some first => some (min limit.toNat (first - 1))

theorem exists_admits {deadline : Deadline} {maxIterations : Option Int} {count : Nat}
    (counted : iterationCount deadline maxIterations = some count) :
    ∃ bound, iterationBound deadline maxIterations = some bound ∧
      deadline.Admits 0 bound count := by
  unfold iterationCount at counted
  split at counted
  · cases counted
  · rename_i limit endless
    rcases Option.some.inj counted with rfl
    refine ⟨_, rfl, le_rfl, fun check asking _ => ?_, .inl rfl⟩
    exact Deadline.passed_eq_false asking (by simp [endless])
  · rename_i first horizon
    rcases Option.some.inj counted with rfl
    rcases deadline.passed_horizon first horizon with ⟨positive, passed⟩
    refine ⟨first, horizon, Nat.sub_le first 1, fun check asking le => ?_, .inr ?_⟩
    · exact Deadline.passed_eq_false asking (by simp [horizon]; omega)
    · rwa [show 0 + (first - 1) + 1 = first by omega]
  · rename_i limit first horizon
    rcases Option.some.inj counted with rfl
    rcases deadline.passed_horizon first horizon with ⟨positive, passed⟩
    refine ⟨_, rfl, Nat.min_le_left _ _, fun check asking le => ?_, ?_⟩
    · exact Deadline.passed_eq_false asking (by simp [horizon]; omega)
    · rcases Nat.le_total limit.toNat (first - 1) with limited | late
      · exact .inl (Nat.min_eq_left limited)
      · right
        rwa [Nat.min_eq_right late, show 0 + (first - 1) + 1 = first by omega]

variable [DecidableEq Player] [DecidableEq Action] [Worded Action]
  {game : Game Position Player Action} {evaluator : Evaluator Memory Position Player}
  {deadline : Deadline} {scorer : ChildScorer} {effort : Effort Memory} {excuse : Prop}
  {invariant : Nat → SearchTree Position Player Action → Memory → Prop}

/-- Whether an iteration of a search upholds an invariant of the number of iterations, the tree and
the memory. All that can prevent it is an integer too large for a double, in the score or in counting
it, for which there is an excuse. -/
def IterationUpholds (game : Game Position Player Action)
    (evaluator : Evaluator Memory Position Player) (scorer : ChildScorer) (excuse : Prop)
    (invariant : Nat → SearchTree Position Player Action → Memory → Prop) : Prop :=
  ∀ done tree memory, invariant done tree memory → ∃ next leaf position,
    tree.grow game scorer = .ok (next, leaf, position) ∧
      ((∃ reward after counted, evaluator.score position next.player memory = (.ok reward, after) ∧
          next.backup leaf reward = (.ok (), counted) ∧ invariant (done + 1) counted after) ∨
        ((evaluator.score position next.player memory).1 = .error .integerTooLarge ∨
          ∃ reward after, evaluator.score position next.player memory = (.ok reward, after) ∧
            (next.backup leaf reward).1 = .error .integerTooLarge) ∧ excuse)

/-- What every iteration upholds holds after all of them, and the limit and the deadline alone
decide how many there are. -/
theorem iterate_comesTo (upholds : IterationUpholds game evaluator scorer excuse invariant)
    {remaining done : Nat} {tree : SearchTree Position Player Action}
    (holds : invariant done tree effort.memory) :
    (iterate game evaluator deadline scorer remaining done tree).ComesTo effort
      (fun result after => after.notes = effort.notes ∧ ∃ count, result.2 = done + count ∧
        deadline.Admits effort.checks remaining count ∧
          invariant (done + count) result.1 after.memory)
      fun fault => fault = .integerTooLarge ∧ excuse := by
  induction remaining generalizing done tree effort with
  | zero =>
      exact SearchM.comesTo_pure.mpr ⟨rfl, 0, rfl, Deadline.admits_zero deadline _, holds⟩
  | succ remaining ih =>
      rw [iterate, SearchM.comesTo_bind]
      refine (SearchM.returns_expired.mpr ?_).comesTo
      split
      · rename_i passed
        exact SearchM.comesTo_pure.mpr
          ⟨rfl, 0, rfl, Deadline.admits_zero_of_passed passed _, holds⟩
      · rename_i unpassed
        rcases upholds done tree effort.memory holds with ⟨next, leaf, position, grown, counted⟩
        rw [SearchM.comesTo_bind]
        refine SearchM.Returns.comesTo (SearchM.returns_lift.mpr ⟨_, grown, ?_⟩)
        rw [SearchM.comesTo_bind]
        rcases counted with ⟨reward, after, counted, scored, credited, kept⟩ |
          ⟨unscored | ⟨reward, after, scored, refused⟩, excused⟩
        · refine SearchM.Returns.comesTo (SearchM.returns_evaluate.mpr ⟨reward, after, scored, ?_⟩)
          rw [SearchM.comesTo_bind]
          simp only [credited]
          refine SearchM.Returns.comesTo (SearchM.returns_lift.mpr ⟨(), rfl, ?_⟩)
          refine (ih kept).mono ?_
          rintro result last ⟨notes, count, result_eq, admits, holds⟩
          refine ⟨notes, count + 1, by omega, admits.succ (by simpa using unpassed), ?_⟩
          rwa [show done + (count + 1) = done + 1 + count by omega]
        · exact SearchM.comesTo_evaluate_error unscored ⟨rfl, excused⟩
        · refine SearchM.Returns.comesTo (SearchM.returns_evaluate.mpr ⟨reward, after, scored, ?_⟩)
          rw [SearchM.comesTo_bind]
          simp only [refused]
          exact SearchM.comesTo_lift_error.mpr ⟨rfl, excused⟩

/-- What a search notes in the end. -/
def iterationNote (scorer : ChildScorer) (tree : SearchTree Position Player Action)
    (iterations : Nat) : Note :=
  ⟨.debug, .monteCarlo, scorer.title ++ ": " ++ toString iterations ++ " iterations, " ++
    toString tree.size ++ " nodes, root visits " ++ toString tree.root.visits⟩

/-- A search that something bounds comes to a tree, unless a reward is too large; its invariant starts
with the root alone. -/
theorem monteCarlo_iterates (upholds : IterationUpholds game evaluator scorer excuse invariant)
    {maxIterations : Option Int} {bound : Nat} {player : Player} {start : Position}
    (bounded : iterationBound deadline maxIterations = some bound)
    (holds : invariant 0 (.ofRoot start player) (evaluator.startSearch effort.memory)) :
    (monteCarlo game evaluator deadline scorer maxIterations player start).ComesTo effort
      (fun tree after => ∃ count, deadline.Admits effort.checks bound count ∧
        invariant count tree after.memory ∧
          after.notes = effort.notes.push (iterationNote scorer tree count))
      fun fault => fault = .integerTooLarge ∧ excuse := by
  rw [monteCarlo, SearchM.comesTo_bind]
  refine (SearchM.returns_startSearch.mpr ?_).comesTo
  simp only [bounded]
  rw [SearchM.comesTo_bind]
  refine (iterate_comesTo upholds holds).mono ?_
  rintro ⟨tree, done⟩ after ⟨notes, count, rfl, admits, holds⟩
  rw [Nat.zero_add] at holds ⊢
  exact ⟨count, admits, holds, congrArg (·.push (iterationNote scorer tree count)) notes⟩

/-- A search that starts afresh performs as many iterations as its limit and its deadline allow. -/
theorem monteCarlo_performs (upholds : IterationUpholds game evaluator scorer excuse invariant)
    {maxIterations : Option Int} {count : Nat} {player : Player} {start : Position}
    (counted : iterationCount deadline maxIterations = some count) {memory : Memory}
    (holds : invariant 0 (.ofRoot start player) (evaluator.startSearch memory)) :
    (monteCarlo game evaluator deadline scorer maxIterations player start).ComesTo (.start memory)
      (fun tree after => invariant count tree after.memory ∧
        after.notes = #[iterationNote scorer tree count])
      fun fault => fault = .integerTooLarge ∧ excuse := by
  rcases exists_admits counted with ⟨bound, bounded, admits⟩
  refine (monteCarlo_iterates upholds bounded holds).mono ?_
  rintro tree after ⟨performed, admitted, holds, notes⟩
  rcases admits.unique admitted with rfl
  exact ⟨holds, notes⟩

/-- A record of what the evaluator is asked grows by one position with each iteration. -/
theorem IterationUpholds.recorded
    (upholds : IterationUpholds game evaluator scorer excuse invariant) (before : Nat) :
    IterationUpholds game evaluator.recorded scorer excuse fun done tree memory =>
      invariant done tree memory.1 ∧ memory.2.scored.length = before + done := by
  rintro done tree ⟨memory, trail⟩ ⟨holds, length_eq⟩
  rcases upholds done tree memory holds with ⟨next, leaf, position, grown, counted⟩
  refine ⟨next, leaf, position, grown, counted.imp ?_ (And.imp_left (.imp_right ?_))⟩
  · rintro ⟨reward, after, counted, scored, credited, kept⟩
    refine ⟨reward, (after, { trail with scored := position :: trail.scored }), counted, ?_,
      credited, kept, ?_⟩
    · simp only [Evaluator.recorded, scored]
    · rw [List.length_cons, length_eq, Nat.add_assoc]
  · rintro ⟨reward, after, scored, refused⟩
    refine ⟨reward, (after, { trail with scored := position :: trail.scored }), ?_, refused⟩
    simp only [Evaluator.recorded, scored]

end GameSearch
