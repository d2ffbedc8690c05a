import GameSearch.Search.Effort

/-!
# What a search returns

A search can fail, and it spends effort while it runs. `SearchM.Returns` says that it does come to a
value, and what then holds of this value and of the effort afterwards. The effort at the start is an
argument, so that a statement for all efforts speaks of every moment at which a search may be
called. `SearchM.Yields` names the value and the effort; it serves to compare two runs.
`SearchM.ComesTo` allows a search some faults besides.
-/

namespace GameSearch

/-- Whether a deadline answers every question with no. -/
def Deadline.NeverPasses (deadline : Deadline) : Prop := ∀ check, deadline.passed check = false

theorem Deadline.never_neverPasses : Deadline.never.NeverPasses := fun _ => rfl

/-- Whether an evaluator with a valid memory scores every position for every player and keeps its
memory valid. -/
structure Evaluator.NeverFails {Memory Position Player : Type}
    (evaluator : Evaluator Memory Position Player) (valid : Memory → Prop) : Prop where
  startSearch : ∀ memory, valid memory → valid (evaluator.startSearch memory)
  score : ∀ position side memory, valid memory → ∃ score after,
    evaluator.score position side memory = (.ok score, after) ∧ valid after

/-- Whether an evaluator with a valid memory either has a score for a position and keeps its memory
valid, or fails because an integer is too large for a double. -/
structure Evaluator.OnlyOverflows {Memory Position Player : Type}
    (evaluator : Evaluator Memory Position Player) (valid : Memory → Prop) : Prop where
  startSearch : ∀ memory, valid memory → valid (evaluator.startSearch memory)
  score : ∀ position side memory, valid memory →
    (∃ score after, evaluator.score position side memory = (.ok score, after) ∧ valid after) ∨
      (evaluator.score position side memory).1 = .error .integerTooLarge

theorem Evaluator.NeverFails.onlyOverflows {Memory Position Player : Type}
    {evaluator : Evaluator Memory Position Player} {valid : Memory → Prop}
    (neverFails : evaluator.NeverFails valid) : evaluator.OnlyOverflows valid :=
  ⟨neverFails.startSearch, fun position side memory fit =>
    .inl (neverFails.score position side memory fit)⟩

namespace SearchM

variable {Memory Position Player α β : Type} {effort : Effort Memory}

/-- Whether a search returns a value that meets a condition together with the effort afterwards. -/
def Returns (search : SearchM Memory α) (effort : Effort Memory)
    (condition : α → Effort Memory → Prop) : Prop :=
  ∃ value after, search.run.run effort = (.ok value, after) ∧ condition value after

theorem Returns.mono {search : SearchM Memory α} {condition weaker : α → Effort Memory → Prop}
    (returns : search.Returns effort condition)
    (weakens : ∀ value after, condition value after → weaker value after) :
    search.Returns effort weaker := by
  rcases returns with ⟨value, after, ran, holds⟩
  exact ⟨value, after, ran, weakens value after holds⟩

theorem Returns.and {search : SearchM Memory α} {first second : α → Effort Memory → Prop}
    (returns : search.Returns effort first) (also : search.Returns effort second) :
    search.Returns effort fun value after => first value after ∧ second value after := by
  rcases returns with ⟨value, after, ran, holds⟩
  rcases also with ⟨other, last, again, other_holds⟩
  rw [ran] at again
  cases again
  exact ⟨value, after, ran, holds, other_holds⟩

/-- The value that a search returns is the one it is known to return. -/
theorem Returns.result_eq {search : SearchM Memory α} {expected : α}
    (returns : search.Returns effort fun value _ => value = expected) :
    (search.run.run effort).1 = .ok expected := by
  rcases returns with ⟨value, after, ran, rfl⟩
  exact congrArg Prod.fst ran

/-- Whether a search comes to a value and what effort it leaves behind. -/
def Yields (search : SearchM Memory α) (effort : Effort Memory) (value : α)
    (after : Effort Memory) : Prop :=
  search.run.run effort = (.ok value, after)

@[simp]
theorem returns_pure {value : α} {condition : α → Effort Memory → Prop} :
    (pure value : SearchM Memory α).Returns effort condition ↔ condition value effort := by
  constructor
  · rintro ⟨_, _, ran, holds⟩
    cases ran
    exact holds
  · exact fun holds => ⟨value, effort, rfl, holds⟩

theorem run_bind (search : SearchM Memory α) (next : α → SearchM Memory β) :
    (search >>= next).run.run effort =
      match search.run.run effort with
      | (.ok value, after) => (next value).run.run after
      | (.error fault, after) => (.error fault, after) := by
  change (match search.run.run effort with
    | (result, after) => (ExceptT.bindCont next result).run after) = _
  rcases search.run.run effort with ⟨_ | _, after⟩ <;> rfl

@[simp]
theorem returns_bind {search : SearchM Memory α} {next : α → SearchM Memory β}
    {condition : β → Effort Memory → Prop} :
    (search >>= next).Returns effort condition ↔
      search.Returns effort fun value after => (next value).Returns after condition := by
  simp only [Returns, run_bind]
  constructor
  · rintro ⟨result, last, ran, holds⟩
    cases first : search.run.run effort with
    | mk outcome after =>
        rw [first] at ran
        cases outcome with
        | error fault => cases ran
        | ok value => exact ⟨value, after, rfl, result, last, ran, holds⟩
  · rintro ⟨value, after, ran, result, last, continued, holds⟩
    exact ⟨result, last, by rw [ran]; exact continued, holds⟩

theorem yields_pure {value result : α} {after : Effort Memory} :
    (pure value : SearchM Memory α).Yields effort result after ↔
      value = result ∧ effort = after := by
  constructor
  · intro ran
    cases ran
    exact ⟨rfl, rfl⟩
  · rintro ⟨rfl, rfl⟩
    rfl

theorem yields_bind {search : SearchM Memory α} {next : α → SearchM Memory β} {result : β}
    {after : Effort Memory} :
    (search >>= next).Yields effort result after ↔
      ∃ value between, search.Yields effort value between ∧
        (next value).Yields between result after := by
  simp only [Yields, run_bind]
  constructor
  · intro ran
    rcases first : search.run.run effort with ⟨fault | value, between⟩
    · rw [first] at ran
      cases ran
    · rw [first] at ran
      exact ⟨value, between, rfl, ran⟩
  · rintro ⟨value, between, first, ran⟩
    rw [first]
    exact ran

theorem yields_lift {outcome : Except Fault α} {result : α} {after : Effort Memory} :
    (liftM outcome : SearchM Memory α).Yields effort result after ↔
      outcome = .ok result ∧ effort = after := by
  constructor
  · intro ran
    cases outcome with
    | error fault => cases ran
    | ok value =>
        cases ran
        exact ⟨rfl, rfl⟩
  · rintro ⟨rfl, rfl⟩
    rfl

theorem yields_expired {deadline : Deadline} {result : Bool} {after : Effort Memory} :
    (expired deadline).Yields effort result after ↔
      deadline.passed (effort.checks + 1) = result ∧
        { effort with checks := effort.checks + 1 } = after := by
  constructor
  · intro ran
    cases ran
    exact ⟨rfl, rfl⟩
  · rintro ⟨rfl, rfl⟩
    rfl

@[simp]
theorem returns_map {search : SearchM Memory α} {change : α → β}
    {condition : β → Effort Memory → Prop} :
    (change <$> search).Returns effort condition ↔
      search.Returns effort fun value after => condition (change value) after := by
  rw [map_eq_pure_bind, returns_bind]
  simp only [returns_pure]

@[simp]
theorem returns_lift {result : Except Fault α} {condition : α → Effort Memory → Prop} :
    (liftM result : SearchM Memory α).Returns effort condition ↔
      ∃ value, result = .ok value ∧ condition value effort := by
  cases result with
  | error fault =>
      constructor
      · rintro ⟨_, _, ran, _⟩
        cases ran
      · rintro ⟨_, impossible, _⟩
        cases impossible
  | ok value =>
      constructor
      · rintro ⟨_, _, ran, holds⟩
        cases ran
        exact ⟨value, rfl, holds⟩
      · rintro ⟨_, same, holds⟩
        cases same
        exact ⟨value, effort, rfl, holds⟩

@[simp]
theorem returns_expired {deadline : Deadline} {condition : Bool → Effort Memory → Prop} :
    (expired deadline).Returns effort condition ↔
      condition (deadline.passed (effort.checks + 1))
        { effort with checks := effort.checks + 1 } := by
  constructor
  · rintro ⟨_, _, ran, holds⟩
    cases ran
    exact holds
  · exact fun holds => ⟨_, _, rfl, holds⟩

@[simp]
theorem returns_note {level : Level} {topic : Topic} {text : String}
    {condition : Unit → Effort Memory → Prop} :
    (note level topic text).Returns effort condition ↔
      condition () { effort with notes := effort.notes.push ⟨level, topic, text⟩ } := by
  constructor
  · rintro ⟨_, _, ran, holds⟩
    cases ran
    exact holds
  · exact fun holds => ⟨_, _, rfl, holds⟩

@[simp]
theorem returns_startSearch {evaluator : Evaluator Memory Position Player}
    {condition : Unit → Effort Memory → Prop} :
    (startSearch evaluator).Returns effort condition ↔
      condition () { effort with memory := evaluator.startSearch effort.memory } := by
  constructor
  · rintro ⟨_, _, ran, holds⟩
    cases ran
    exact holds
  · exact fun holds => ⟨_, _, rfl, holds⟩

@[simp]
theorem returns_evaluate {evaluator : Evaluator Memory Position Player} {position : Position}
    {side : Player} {condition : Number → Effort Memory → Prop} :
    (evaluate evaluator position side).Returns effort condition ↔
      ∃ score memory, evaluator.score position side effort.memory = (.ok score, memory) ∧
        condition score { effort with memory } := by
  constructor
  · rintro ⟨score, after, ran, holds⟩
    have scored : (evaluator.score position side effort.memory).1 = .ok score :=
      congrArg Prod.fst ran
    rcases congrArg Prod.snd ran with rfl
    exact ⟨score, _, Prod.ext scored rfl, holds⟩
  · rintro ⟨score, memory, scored, holds⟩
    refine ⟨score, { effort with memory }, ?_, holds⟩
    exact congrArg (fun outcome : Except Fault Number × Memory =>
      (outcome.1, ({ effort with memory := outcome.2 } : Effort Memory))) scored

/-! ### Searches that may fail -/

section Faults

variable {condition weaker : α → Effort Memory → Prop} {faulty allowed : Fault → Prop}

/-- Whether a search comes to a value that meets a condition, together with the effort afterwards,
or to one of some faults. -/
def ComesTo (search : SearchM Memory α) (effort : Effort Memory)
    (condition : α → Effort Memory → Prop) (faulty : Fault → Prop) : Prop :=
  match search.run.run effort with
  | (.ok value, after) => condition value after
  | (.error fault, _) => faulty fault

theorem Returns.comesTo {search : SearchM Memory α} (returns : search.Returns effort condition) :
    search.ComesTo effort condition faulty := by
  rcases returns with ⟨value, after, ran, holds⟩
  rw [ComesTo, ran]
  exact holds

theorem ComesTo.cases {search : SearchM Memory α} (comes : search.ComesTo effort condition faulty) :
    search.Returns effort condition ∨
      ∃ fault after, search.run.run effort = (.error fault, after) ∧ faulty fault := by
  unfold ComesTo at comes
  rcases ran : search.run.run effort with ⟨fault | value, after⟩
  · rw [ran] at comes
    exact .inr ⟨fault, after, rfl, comes⟩
  · rw [ran] at comes
    exact .inl ⟨value, after, ran, comes⟩

/-- A search that is allowed no fault comes to a value. -/
theorem ComesTo.returns {search : SearchM Memory α} (comes : search.ComesTo effort condition faulty)
    (faultless : ∀ fault, ¬faulty fault) : search.Returns effort condition := by
  rcases comes.cases with returns | ⟨fault, after, -, failed⟩
  · exact returns
  · exact absurd failed (faultless fault)

theorem comesTo_bind {search : SearchM Memory α} {next : α → SearchM Memory β}
    {condition : β → Effort Memory → Prop} :
    (search >>= next).ComesTo effort condition faulty ↔
      search.ComesTo effort (fun value after => (next value).ComesTo after condition faulty)
        faulty := by
  simp only [ComesTo, run_bind]
  rcases search.run.run effort with ⟨fault | value, after⟩
  · rfl
  · rfl

theorem comesTo_pure {value : α} :
    (pure value : SearchM Memory α).ComesTo effort condition faulty ↔ condition value effort :=
  Iff.rfl

theorem comesTo_map {search : SearchM Memory α} {change : α → β}
    {condition : β → Effort Memory → Prop} :
    (change <$> search).ComesTo effort condition faulty ↔
      search.ComesTo effort (fun value after => condition (change value) after) faulty := by
  rw [map_eq_pure_bind, comesTo_bind]
  simp only [comesTo_pure]

theorem comesTo_lift_error {fault : Fault} :
    (liftM (.error fault : Except Fault α) : SearchM Memory α).ComesTo effort condition faulty ↔
      faulty fault := Iff.rfl

theorem comesTo_evaluate_error {evaluator : Evaluator Memory Position Player} {position : Position}
    {side : Player} {condition : Number → Effort Memory → Prop} {fault : Fault}
    (unscored : (evaluator.score position side effort.memory).1 = .error fault)
    (allowed : faulty fault) :
    (evaluate evaluator position side).ComesTo effort condition faulty := by
  have failed : ((evaluate evaluator position side).run.run effort).1 = .error fault := unscored
  rw [ComesTo]
  rcases ran : (evaluate evaluator position side).run.run effort with ⟨found | value, after⟩
  · rw [ran] at failed
    cases failed
    exact allowed
  · rw [ran] at failed
    cases failed

/-- The fault that a search comes to, if it comes to no value. -/
def fault? (search : SearchM Memory α) (effort : Effort Memory) : Option Fault :=
  match (search.run.run effort).1 with
  | .ok _ => none
  | .error fault => some fault

theorem result_eq_error {search : SearchM Memory α} {fault : Fault}
    (failed : search.fault? effort = some fault) :
    (search.run.run effort).1 = .error fault := by
  unfold fault? at failed
  split at failed
  · cases failed
  · rename_i outcome
    rw [outcome, Option.some.inj failed]

theorem fault?_of_run {search : SearchM Memory α} {fault : Fault} {after : Effort Memory}
    (ran : search.run.run effort = (.error fault, after)) : search.fault? effort = some fault := by
  rw [fault?, ran]

theorem fault?_bind {search : SearchM Memory α} {next : α → SearchM Memory β} {fault : Fault}
    (failed : search.fault? effort = some fault) :
    (search >>= next).fault? effort = some fault := by
  have outcome := result_eq_error failed
  rw [fault?, run_bind]
  rcases ran : search.run.run effort with ⟨found | value, after⟩
  · rw [ran] at outcome
    cases outcome
    rfl
  · rw [ran] at outcome
    cases outcome

theorem ComesTo.mono {search : SearchM Memory α} (comes : search.ComesTo effort condition faulty)
    (weakens : ∀ value after, condition value after → weaker value after) :
    search.ComesTo effort weaker faulty := by
  unfold ComesTo at comes ⊢
  rcases ran : search.run.run effort with ⟨fault | value, after⟩
  · rwa [ran] at comes
  · rw [ran] at comes
    exact weakens value after comes

end Faults

end SearchM

end GameSearch
