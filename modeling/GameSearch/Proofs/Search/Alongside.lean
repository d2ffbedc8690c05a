import GameSearch.Proofs.Search.Returns

/-!
# Two searches side by side

Some searches differ in what their evaluators remember and in the scores they come to, and still
ask their deadline equally often and report the same. Such searches are compared part by part: what
links the memories and what relates the values is handed on from each part to the next.
-/

namespace GameSearch

variable {Memory OtherMemory Position Player α β γ δ : Type} {linked : Memory → OtherMemory → Prop}

/-- Whether two efforts have asked equally often, have reported the same and have linked memories. -/
structure Effort.Linked (linked : Memory → OtherMemory → Prop) (effort : Effort Memory)
    (other : Effort OtherMemory) : Prop where
  checks_eq : other.checks = effort.checks
  notes_eq : other.notes = effort.notes
  memory : linked effort.memory other.memory

namespace SearchM

/-- Whether two searches that start with linked efforts both return, leave linked efforts behind and
come to related values. -/
def Alongside (search : SearchM Memory α) (other : SearchM OtherMemory β)
    (linked : Memory → OtherMemory → Prop) (related : α → β → Prop) : Prop :=
  ∀ effort otherEffort, effort.Linked linked otherEffort →
    ∃ value counterpart after otherAfter, search.Yields effort value after ∧
      other.Yields otherEffort counterpart otherAfter ∧ after.Linked linked otherAfter ∧
      related value counterpart

theorem alongside_pure {related : α → β → Prop} {value : α} {counterpart : β}
    (holds : related value counterpart) :
    (pure value : SearchM Memory α).Alongside (pure counterpart) linked related := by
  intro effort otherEffort fit
  exact ⟨value, counterpart, effort, otherEffort, rfl, rfl, fit, holds⟩

theorem Alongside.bind {search : SearchM Memory α} {other : SearchM OtherMemory β}
    {next : α → SearchM Memory γ} {otherNext : β → SearchM OtherMemory δ}
    {related : α → β → Prop} {thenRelated : γ → δ → Prop}
    (first : search.Alongside other linked related)
    (second : ∀ value counterpart, related value counterpart →
      (next value).Alongside (otherNext counterpart) linked thenRelated) :
    (search >>= next).Alongside (other >>= otherNext) linked thenRelated := by
  intro effort otherEffort fit
  rcases first effort otherEffort fit with
    ⟨value, counterpart, between, otherBetween, ran, otherRan, kept, holds⟩
  rcases second value counterpart holds between otherBetween kept with
    ⟨result, otherResult, after, otherAfter, continued, otherContinued, still, holds⟩
  refine ⟨result, otherResult, after, otherAfter, ?_, ?_, still, holds⟩
  · exact yields_bind.mpr ⟨value, between, ran, continued⟩
  · exact yields_bind.mpr ⟨counterpart, otherBetween, otherRan, otherContinued⟩

theorem alongside_ite {condition : Bool} {search rest : SearchM Memory α}
    {other otherRest : SearchM OtherMemory β} {related : α → β → Prop}
    (done : search.Alongside other linked related)
    (undone : rest.Alongside otherRest linked related) :
    (if condition then search else rest).Alongside (if condition then other else otherRest) linked
      related := by
  cases condition with
  | true => exact done
  | false => exact undone

theorem alongside_expired (deadline : Deadline) :
    (expired deadline : SearchM Memory Bool).Alongside
      (expired deadline : SearchM OtherMemory Bool) linked Eq := by
  intro effort otherEffort fit
  refine ⟨_, _, _, _, rfl, rfl, ⟨?_, fit.notes_eq, fit.memory⟩, ?_⟩
  · exact congrArg (· + 1) fit.checks_eq
  · rw [fit.checks_eq]

theorem alongside_lift {outcome : Except Fault α} {other : Except Fault β} {value : α}
    {counterpart : β} (done : outcome = .ok value) (otherDone : other = .ok counterpart) :
    (liftM outcome : SearchM Memory α).Alongside (liftM other : SearchM OtherMemory β) linked
      fun found otherFound => found = value ∧ otherFound = counterpart := by
  intro effort otherEffort fit
  exact ⟨value, counterpart, effort, otherEffort, yields_lift.mpr ⟨done, rfl⟩,
    yields_lift.mpr ⟨otherDone, rfl⟩, fit, rfl, rfl⟩

theorem alongside_startSearch {evaluator : Evaluator Memory Position Player}
    {other : Evaluator OtherMemory Position Player}
    (starts : ∀ memory otherMemory, linked memory otherMemory →
      linked (evaluator.startSearch memory) (other.startSearch otherMemory)) :
    (startSearch evaluator).Alongside (startSearch other) linked Eq := by
  intro effort otherEffort fit
  exact ⟨_, _, _, _, rfl, rfl, ⟨fit.checks_eq, fit.notes_eq, starts _ _ fit.memory⟩, rfl⟩

theorem yields_evaluate {evaluator : Evaluator Memory Position Player} {position : Position}
    {side : Player} {score : Number} {effort : Effort Memory} {after : Memory}
    (scored : evaluator.score position side effort.memory = (.ok score, after)) :
    (evaluate evaluator position side).Yields effort score { effort with memory := after } :=
  congrArg (fun outcome : Except Fault Number × Memory =>
    (outcome.1, ({ effort with memory := outcome.2 } : Effort Memory))) scored

theorem alongside_evaluate {evaluator : Evaluator Memory Position Player}
    {other : Evaluator OtherMemory Position Player} {position : Position} {side otherSide : Player}
    {related : Number → Number → Prop}
    (scores : ∀ memory otherMemory, linked memory otherMemory →
      ∃ score counterpart after otherAfter,
        evaluator.score position side memory = (.ok score, after) ∧
        other.score position otherSide otherMemory = (.ok counterpart, otherAfter) ∧
        linked after otherAfter ∧ related score counterpart) :
    (evaluate evaluator position side).Alongside (evaluate other position otherSide) linked
      related := by
  intro effort otherEffort fit
  rcases scores _ _ fit.memory with
    ⟨score, counterpart, after, otherAfter, scored, otherScored, kept, holds⟩
  exact ⟨score, counterpart, _, _, yields_evaluate scored, yields_evaluate otherScored,
    ⟨fit.checks_eq, fit.notes_eq, kept⟩, holds⟩

theorem alongside_note (level : Level) (topic : Topic) (text : String) :
    (note level topic text : SearchM Memory Unit).Alongside
      (note level topic text : SearchM OtherMemory Unit) linked Eq := by
  intro effort otherEffort fit
  refine ⟨_, _, _, _, rfl, rfl, ⟨fit.checks_eq, ?_, fit.memory⟩, rfl⟩
  exact congrArg (·.push ⟨level, topic, text⟩) fit.notes_eq

end SearchM

end GameSearch
