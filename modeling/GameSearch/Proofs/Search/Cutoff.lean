import GameSearch.Proofs.Search.Pursuit

/-!
# Searches that are cut off

A deadline that passes at its `n`-th question cuts a search off there: the search has asked `n`
times, unless it was done before, and what it has scored is what the search without a deadline
scores before its own `n`-th question. Each position that it scores has cost a question that was
answered with no, unless the position is the one the search starts from.
-/

namespace GameSearch

open Course

namespace Deadline

variable {Position : Type} {deadline : Deadline} {checks limit : Nat} {course : Course Position}

/-- How many of the first questions are answered with no. -/
def denials (deadline : Deadline) (checks : Nat) : Nat :=
  (List.range checks).countP fun check => !deadline.passed (check + 1)

theorem denials_succ :
    deadline.denials (checks + 1) =
      deadline.denials checks + if deadline.passed (checks + 1) then 0 else 1 := by
  rw [denials, List.range_succ, List.countP_append, ← denials]
  cases passed : deadline.passed (checks + 1) <;> simp [passed]

theorem denials_eq (unpassed : ¬deadline.PassesBetween 0 checks) :
    deadline.denials checks = checks := by
  induction checks with
  | zero => rfl
  | succ checks ih =>
      rw [passesBetween_trans (Nat.zero_le checks) (Nat.le_succ checks), passesBetween_succ,
        not_or] at unpassed
      rw [denials_succ, ih unpassed.1, if_neg unpassed.2]

theorem passesBetween_zero_iff (horizon : deadline.horizon = some limit) :
    deadline.PassesBetween 0 checks ↔ limit ≤ checks := by
  constructor
  · rintro ⟨check, positive, le, passed⟩
    rcases deadline.horizon_le check positive passed with ⟨first, first_eq, first_le⟩
    rw [horizon, Option.some.injEq] at first_eq
    omega
  · intro le
    rcases deadline.passed_horizon limit horizon with ⟨positive, passed⟩
    exact ⟨limit, positive, le, passed⟩

/-- The questions that a deadline lets a course ask are those up to its horizon. -/
theorem asks_heeded (horizon : deadline.horizon = some limit) :
    asks (deadline.heeded 0 course) = min limit (asks course) := by
  by_cases cuts : deadline.CutsShort 0 course
  · rcases exists_heeded_eq cuts with ⟨done, done_eq, whole, passed⟩
    rw [CutsShort, Nat.zero_add, passesBetween_zero_iff horizon] at cuts whole
    have reached : deadline.PassesBetween 0 (0 + asks done + 1) :=
      ⟨_, Nat.zero_lt_succ _, le_rfl, passed⟩
    rw [passesBetween_zero_iff horizon] at reached
    rw [done_eq, asks_append, asks_ask, asks_nil]
    omega
  · rw [heeded_eq cuts]
    rw [CutsShort, Nat.zero_add, passesBetween_zero_iff horizon] at cuts
    omega

/-- What is scored on a paid course is paid by questions that are answered with no. -/
theorem scored_heeded_le (paid : Paid course) :
    (scored (deadline.heeded 0 course)).length ≤
      deadline.denials (asks (deadline.heeded 0 course)) := by
  by_cases cuts : deadline.CutsShort 0 course
  · rcases exists_heeded_eq cuts with ⟨done, done_eq, whole, passed⟩
    rw [CutsShort, Nat.zero_add] at whole
    rw [Nat.zero_add] at passed
    have denied : deadline.denials (asks done + 1) = asks done := by
      rw [denials_succ, denials_eq whole, if_pos passed, Nat.add_zero]
    have early : done <+: deadline.heeded 0 course := ⟨[.ask], done_eq.symm⟩
    simp only [done_eq, asks_append, asks_ask, asks_nil, scored_append, scored_ask, scored_nil,
      List.append_nil, Nat.zero_add, denied]
    exact paid.of_prefix (early.trans heeded_prefix)
  · rw [heeded_eq cuts]
    rw [CutsShort, Nat.zero_add] at cuts
    rw [denials_eq cuts]
    exact paid.of_prefix List.prefix_rfl

end Deadline

variable {Memory Position Player Action : Type} {deadline : Deadline} {valid : Memory → Prop}
  {course : Course Position} {memory : Memory} {result final : Tracker Action}
  {after : Effort (Memory × Trail Position)}

/-- What a search has done when its deadline lets it get no further than to some point of its
course. -/
structure CutOff (deadline : Deadline) (course : Course Position) (result : Tracker Action)
    (after : Effort (Memory × Trail Position)) : Prop where
  checks_eq : ∀ limit, deadline.horizon = some limit → after.checks = min limit (asks course)
  truncated_iff : ∀ limit, deadline.horizon = some limit →
    (result.truncated = true ↔ limit ≤ asks course)
  scored_prefix : after.memory.2.scored.reverse <+: scored course
  /-- The last thing that a search does when it is cut off is to ask. -/
  done_prefix : ∃ done, done <+: course ∧ asks done = after.checks ∧
    scored done = after.memory.2.scored.reverse ∧
    (result.truncated = true → done.getLast? = some .ask)

theorem Pursued.cutOff
    (pursued : Pursued deadline course final (.start (memory, ⟨[], 0⟩)) result after) :
    CutOff deadline course result after := by
  rcases pursued.done_eq with ⟨checks_eq, scored_eq⟩
  constructor
  · intro limit horizon
    rw [checks_eq, Deadline.asks_heeded horizon]
  · intro limit horizon
    rw [pursued.truncated_iff, Deadline.CutsShort, Effort.start, Nat.zero_add,
      Deadline.passesBetween_zero_iff horizon]
  · rw [scored_eq]
    exact Deadline.heeded_prefix.filterMap Event.position?
  · refine ⟨_, Deadline.heeded_prefix, checks_eq.symm, scored_eq.symm, ?_⟩
    intro truncated
    rcases Deadline.exists_heeded_eq (pursued.truncated_iff.mp truncated) with ⟨done, done_eq, -⟩
    rw [Effort.start] at done_eq
    rw [done_eq, List.getLast?_concat]

variable [DecidableEq Player] {game : Game Position Player Action}
  {evaluator : Evaluator Memory Position Player} {seeker : Player} {value : Position → Int}
  {position : Position}

/-- Without a deadline, a search to a depth goes through its whole course of questions and scores. A
deadline that passes at some question cuts it off there, and not before. Unless the search scores
its first position as it stands, each score takes a question that is answered with no. -/
theorem TreeMethod.run_cutOff (method : TreeMethod) {depth : Int} (limited : 0 ≤ depth)
    (computes : ∀ position, evaluator.Computes valid seeker value position) (fit : valid memory) :
    let course := (method.journey game value seeker depth.toNat position).course
    ((method.run game evaluator.recorded .never depth seeker position).Returns
      (.start (memory, ⟨[], 0⟩)) fun best whole =>
        best.truncated = false ∧ whole.checks = asks course ∧
          whole.memory.2.scored.reverse = scored course) ∧
    ∀ deadline : Deadline,
      (method.run game evaluator.recorded deadline depth seeker position).Returns
        (.start (memory, ⟨[], 0⟩)) fun result after =>
          CutOff deadline course result after ∧
          (game.IsLeaf depth.toNat position →
            after.checks = 0 ∧ after.memory.2.scored = [position]) ∧
          (¬game.IsLeaf depth.toNat position →
            after.memory.2.scored.length ≤ deadline.denials after.checks) := by
  intro course
  have pursues : Pursues _ valid course _ := @search_pursues _ _ _ _ game evaluator valid seeker
    value position depth.toNat _ method computes
  have spends : game.Spends depth.toNat position course := method.spends_journey
  simp only [run_of_limited limited]
  constructor
  · refine (pursues .never _ fit).mono ?_
    rintro best whole ⟨-, pursued⟩
    exact pursued.whole_of_never Deadline.never_neverPasses
  · intro deadline
    refine (pursues deadline _ fit).mono ?_
    rintro result after ⟨-, pursued⟩
    rcases pursued.done_eq with ⟨checks_eq, scored_eq⟩
    refine ⟨pursued.cutOff, ?_, ?_⟩
    · intro leaf
      simp only [spends.leaf leaf, Deadline.heeded, asks_score, asks_nil, scored_score,
        scored_nil] at checks_eq scored_eq
      exact ⟨checks_eq, List.reverse_injective scored_eq⟩
    · intro inner
      rw [← List.length_reverse, scored_eq, checks_eq]
      exact Deadline.scored_heeded_le (spends.paid inner)

/-- Three plies of alpha-beta search in Nim. -/
theorem TreeMethod.run_cutOff_nim :
    let start : Nim.Position := ⟨[2, 1], .one, none, false, by simp, by simp⟩
    let evaluator : Evaluator Unit Nim.Position Nim.Player :=
      .ofFunction fun position side => .int (Nim.winLossScore position side)
    let course := (TreeMethod.alphaBeta.journey Nim.game (Nim.winLossScore · .two) .two 3
      start).course
    (0 : Int) ≤ 3 ∧
      (∀ position, evaluator.Computes (fun _ => True) .two (Nim.winLossScore · .two) position) ∧
      ((TreeMethod.alphaBeta.run Nim.game evaluator.recorded .never 3 .two start).Returns
        (.start ((), ⟨[], 0⟩)) fun best whole =>
          best.truncated = false ∧ whole.checks = asks course ∧
            whole.memory.2.scored.reverse = scored course) ∧
      ∀ deadline : Deadline,
        (TreeMethod.alphaBeta.run Nim.game evaluator.recorded deadline 3 .two start).Returns
          (.start ((), ⟨[], 0⟩)) fun result after =>
            CutOff deadline course result after ∧
            (Nim.game.IsLeaf 3 start → after.checks = 0 ∧ after.memory.2.scored = [start]) ∧
            (¬Nim.game.IsLeaf 3 start →
              after.memory.2.scored.length ≤ deadline.denials after.checks) := by
  intro start evaluator course
  have computes := Evaluator.computes_ofFunction Nim.winLossScore .two
  exact ⟨by decide, computes, TreeMethod.run_cutOff .alphaBeta (by decide) computes trivial⟩

end GameSearch
