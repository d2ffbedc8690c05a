import GameSearch.Proofs.Search.Alongside

/-!
# Two searches in step

Some searches differ in their results and still ask the same questions: they ask their deadline
equally often, score the same positions and leave the evaluator with the same memory. They run side
by side, and what links their memories is that there is only one.
-/

namespace GameSearch

/-- Whether the players of a game are two given ones. -/
structure Game.IsBetween {Position Player Action : Type} (game : Game Position Player Action)
    (first second : Player) : Prop where
  distinct : first ≠ second
  mover : ∀ position player, game.status position = .turn player →
    player = first ∨ player = second

/-- Whether an evaluator with a valid memory gives two players opposite integers, remembers the same
after scoring for either of them, and keeps its memory valid. -/
structure Evaluator.Opposes {Memory Position Player : Type}
    (evaluator : Evaluator Memory Position Player) (valid : Memory → Prop)
    (first second : Player) : Prop where
  startSearch : ∀ memory, valid memory → valid (evaluator.startSearch memory)
  score : ∀ position memory, valid memory → ∃ (score : Int) (after : Memory),
    evaluator.score position first memory = (.ok (.int score), after) ∧
    evaluator.score position second memory = (.ok (.int (-score)), after) ∧ valid after

namespace SearchM

variable {Memory Position Player α β γ δ : Type} {valid : Memory → Prop}

/-- Whether two searches that start with the same effort and a valid memory both return, leave the
same effort behind and come to related values. -/
def InStep (search : SearchM Memory α) (other : SearchM Memory β) (valid : Memory → Prop)
    (related : α → β → Prop) : Prop :=
  ∀ effort, valid effort.memory → ∃ value counterpart after, search.Yields effort value after ∧
    other.Yields effort counterpart after ∧ valid after.memory ∧ related value counterpart

/-- Efforts whose memories are the same are the same. -/
theorem linked_iff {effort other : Effort Memory} :
    effort.Linked (fun memory otherMemory => memory = otherMemory ∧ valid memory) other ↔
      effort = other ∧ valid effort.memory := by
  constructor
  · rintro ⟨checks_eq, notes_eq, memory_eq, fit⟩
    cases effort
    cases other
    cases checks_eq
    cases notes_eq
    cases memory_eq
    exact ⟨rfl, fit⟩
  · rintro ⟨rfl, fit⟩
    exact ⟨rfl, rfl, rfl, fit⟩

/-- Searches in step are searches side by side that share a valid memory. -/
theorem inStep_iff {search : SearchM Memory α} {other : SearchM Memory β} {related : α → β → Prop} :
    search.InStep other valid related ↔
      search.Alongside other (fun memory otherMemory => memory = otherMemory ∧ valid memory)
        related := by
  constructor
  · intro inStep effort otherEffort linked
    rcases linked_iff.mp linked with ⟨rfl, fit⟩
    rcases inStep effort fit with ⟨value, counterpart, after, ran, otherRan, kept, holds⟩
    exact ⟨value, counterpart, after, after, ran, otherRan, linked_iff.mpr ⟨rfl, kept⟩, holds⟩
  · intro alongside effort fit
    rcases alongside effort effort (linked_iff.mpr ⟨rfl, fit⟩) with
      ⟨value, counterpart, after, otherAfter, ran, otherRan, linked, holds⟩
    rcases linked_iff.mp linked with ⟨rfl, kept⟩
    exact ⟨value, counterpart, after, ran, otherRan, kept, holds⟩

theorem InStep.mono {search : SearchM Memory α} {other : SearchM Memory β}
    {related weaker : α → β → Prop} (inStep : search.InStep other valid related)
    (weakens : ∀ value counterpart, related value counterpart → weaker value counterpart) :
    search.InStep other valid weaker := by
  intro effort fit
  rcases inStep effort fit with ⟨value, counterpart, after, ran, otherRan, kept, holds⟩
  exact ⟨value, counterpart, after, ran, otherRan, kept, weakens value counterpart holds⟩

theorem inStep_pure {related : α → β → Prop} {value : α} {counterpart : β}
    (holds : related value counterpart) :
    (pure value : SearchM Memory α).InStep (pure counterpart) valid related :=
  inStep_iff.mpr (alongside_pure holds)

theorem inStep_expired (deadline : Deadline) :
    (expired deadline : SearchM Memory Bool).InStep (expired deadline) valid Eq :=
  inStep_iff.mpr (alongside_expired deadline)

theorem inStep_lift {outcome : Except Fault α} {other : Except Fault β} {value : α}
    {counterpart : β} (done : outcome = .ok value) (otherDone : other = .ok counterpart) :
    (liftM outcome : SearchM Memory α).InStep (liftM other) valid
      fun found otherFound => found = value ∧ otherFound = counterpart :=
  inStep_iff.mpr (alongside_lift done otherDone)

theorem inStep_startSearch {evaluator : Evaluator Memory Position Player} {first second : Player}
    (opposes : evaluator.Opposes valid first second) :
    (startSearch evaluator).InStep (startSearch evaluator) valid Eq := by
  apply inStep_iff.mpr
  apply alongside_startSearch
  rintro memory _ ⟨rfl, fit⟩
  exact ⟨rfl, opposes.startSearch memory fit⟩

theorem inStep_evaluate {evaluator : Evaluator Memory Position Player} {first second : Player}
    (opposes : evaluator.Opposes valid first second) {position : Position} :
    (evaluate evaluator position first).InStep (evaluate evaluator position second) valid
      fun score other => ∃ (value : Int) (memory after : Memory), score = .int value ∧
        other = .int (-value) ∧ valid memory ∧
          evaluator.score position first memory = (.ok (.int value), after) := by
  apply inStep_iff.mpr
  apply alongside_evaluate
  rintro memory _ ⟨rfl, fit⟩
  rcases opposes.score position memory fit with ⟨value, after, scored, otherScored, kept⟩
  exact ⟨_, _, after, after, scored, otherScored, ⟨rfl, kept⟩, value, memory, after, rfl, rfl, fit,
    scored⟩

theorem inStep_note (level : Level) (topic : Topic) (text : String) :
    (note level topic text : SearchM Memory Unit).InStep (note level topic text) valid Eq :=
  inStep_iff.mpr (alongside_note level topic text)

/-! ### Searches that may fail together -/

section Faults

variable {related : α → β → Prop} {faulty : Fault → Prop} {search : SearchM Memory α}
  {other : SearchM Memory β}

/-- Whether two searches that start with the same effort and a valid memory either both return as
searches in step do, or both fail with the same one of some faults and the same effort. -/
def InStepUnless (search : SearchM Memory α) (other : SearchM Memory β) (valid : Memory → Prop)
    (related : α → β → Prop) (faulty : Fault → Prop) : Prop :=
  ∀ effort, valid effort.memory →
    (∃ value counterpart after, search.Yields effort value after ∧
      other.Yields effort counterpart after ∧ valid after.memory ∧ related value counterpart) ∨
    ∃ fault after, search.run.run effort = (.error fault, after) ∧
      other.run.run effort = (.error fault, after) ∧ faulty fault

theorem InStep.unless (inStep : search.InStep other valid related) :
    search.InStepUnless other valid related faulty :=
  fun effort fit => .inl (inStep effort fit)

theorem InStepUnless.bind {next : α → SearchM Memory γ} {otherNext : β → SearchM Memory δ}
    {thenRelated : γ → δ → Prop} (first : search.InStepUnless other valid related faulty)
    (second : ∀ value counterpart, related value counterpart →
      (next value).InStepUnless (otherNext counterpart) valid thenRelated faulty) :
    (search >>= next).InStepUnless (other >>= otherNext) valid thenRelated faulty := by
  intro effort fit
  simp only [Yields, run_bind]
  rcases first effort fit with ⟨value, counterpart, after, ran, otherRan, kept, holds⟩ |
    ⟨fault, after, ran, otherRan, allowed⟩
  · rw [ran, otherRan]
    exact second value counterpart holds after kept
  · right
    rw [ran, otherRan]
    exact ⟨fault, after, rfl, rfl, allowed⟩

theorem inStepUnless_lift_error {fault : Fault} (allowed : faulty fault) :
    (liftM (.error fault : Except Fault α) : SearchM Memory α).InStepUnless
      (liftM (.error fault : Except Fault β)) valid related faulty :=
  fun effort _ => .inr ⟨fault, effort, rfl, rfl, allowed⟩

end Faults

end SearchM

end GameSearch
