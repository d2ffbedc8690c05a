import GameSearch.Proofs.Search.Interruption

/-!
# The course of a search

A search that nothing cuts short asks its deadline and scores positions in a fixed order: its
course. Another deadline lets the same happen up to the first question that it answers with yes, and
this question is the last thing that happens.
-/

namespace GameSearch

variable {Memory Position Player Action : Type}

/-- What a search does that can be observed: it asks its deadline, or scores a position. -/
inductive Event (Position : Type) where
  | ask
  | score (position : Position)

/-- Whether an event is a question. -/
def Event.isAsk : Event Position → Bool
  | .ask => true
  | .score _ => false

/-- The position that an event scores. -/
def Event.position? : Event Position → Option Position
  | .ask => none
  | .score position => some position

/-- What a search does from its start to its end. -/
abbrev Course (Position : Type) := List (Event Position)

namespace Course

/-- How often the deadline is asked. -/
def asks (course : Course Position) : Nat := course.countP Event.isAsk

/-- The positions that are scored, in order. -/
def scored (course : Course Position) : List Position := course.filterMap Event.position?

/-- Whether at each point no more positions have been scored than questions have been asked. -/
def Paid (course : Course Position) : Prop :=
  ∀ count, (scored (course.take count)).length ≤ asks (course.take count)

variable {position : Position} {first second course : Course Position}

@[simp]
theorem asks_nil : asks ([] : Course Position) = 0 := rfl

@[simp]
theorem asks_ask : asks (.ask :: course) = asks course + 1 :=
  List.countP_cons_of_pos rfl

@[simp]
theorem asks_score : asks (.score position :: course) = asks course :=
  List.countP_cons_of_neg Bool.false_ne_true

@[simp]
theorem asks_append : asks (first ++ second) = asks first + asks second :=
  List.countP_append

@[simp]
theorem scored_nil : scored ([] : Course Position) = [] := rfl

@[simp]
theorem scored_ask : scored (.ask :: course) = scored course :=
  List.filterMap_cons_none rfl

@[simp]
theorem scored_score : scored (.score position :: course) = position :: scored course :=
  List.filterMap_cons_some rfl

@[simp]
theorem scored_append : scored (first ++ second) = scored first ++ scored second :=
  List.filterMap_append

theorem paid_nil : Paid ([] : Course Position) := by
  intro count
  simp

theorem Paid.append (firstPaid : Paid first) (secondPaid : Paid second) :
    Paid (first ++ second) := by
  intro count
  have paid := Nat.add_le_add (firstPaid count) (secondPaid (count - first.length))
  simpa [List.take_append] using paid

theorem paid_leaf (position : Position) : Paid [.ask, .score position] := by
  intro count
  rcases count with _ | _ | _ | count <;> simp

theorem Paid.ask (paid : Paid course) : Paid (.ask :: course) := by
  intro count
  rcases count with _ | count
  · simp
  · simpa using Nat.le_succ_of_le (paid count)

theorem Paid.of_prefix (paid : Paid second) (isPrefix : first <+: second) :
    (scored first).length ≤ asks first := by
  rw [List.prefix_iff_eq_take.mp isPrefix]
  exact paid first.length

end Course

namespace Deadline

open Course

/-- The part of a course that a deadline lets happen: everything up to the first question that is
answered with yes. -/
def heeded (deadline : Deadline) : (checks : Nat) → Course Position → Course Position
  | _, [] => []
  | checks, .score position :: later => .score position :: deadline.heeded checks later
  | checks, .ask :: later =>
    if deadline.passed (checks + 1) then [.ask] else .ask :: deadline.heeded (checks + 1) later

/-- Whether a deadline cuts a course short that starts after a number of questions. -/
def CutsShort (deadline : Deadline) (checks : Nat) (course : Course Position) : Prop :=
  deadline.PassesBetween checks (checks + asks course)

variable {deadline : Deadline} {checks : Nat} {position : Position}
  {course early late : Course Position}

@[simp]
theorem not_cutsShort_nil : ¬deadline.CutsShort checks ([] : Course Position) :=
  not_passesBetween_self

@[simp]
theorem cutsShort_score :
    deadline.CutsShort checks (.score position :: course) ↔ deadline.CutsShort checks course := by
  simp [CutsShort]

@[simp]
theorem cutsShort_append :
    deadline.CutsShort checks (early ++ late) ↔
      deadline.CutsShort checks early ∨ deadline.CutsShort (checks + asks early) late := by
  simp only [CutsShort, asks_append, ← Nat.add_assoc]
  exact passesBetween_trans (Nat.le_add_right _ _) (Nat.le_add_right _ _)

@[simp]
theorem cutsShort_ask :
    deadline.CutsShort checks (.ask :: course) ↔
      deadline.passed (checks + 1) = true ∨ deadline.CutsShort (checks + 1) course := by
  rw [← passesBetween_succ]
  exact @cutsShort_append _ _ _ [.ask] course

theorem not_passesBetween_of_whole (unpassed : ¬deadline.PassesBetween 0 checks)
    (whole : ¬deadline.CutsShort checks course) :
    ¬deadline.PassesBetween 0 (checks + asks course) := by
  rw [passesBetween_trans (Nat.zero_le checks) (Nat.le_add_right _ _), not_or]
  exact ⟨unpassed, whole⟩

theorem NeverPasses.not_cutsShort (never : deadline.NeverPasses) :
    ¬deadline.CutsShort checks course := by
  rintro ⟨check, -, -, passed⟩
  rw [never check] at passed
  cases passed

theorem heeded_prefix : deadline.heeded checks course <+: course := by
  induction course generalizing checks with
  | nil => exact List.prefix_rfl
  | cons event later ih =>
      cases event with
      | score position => exact List.cons_prefix_cons.mpr ⟨rfl, ih⟩
      | ask =>
          simp only [heeded]
          split
          · exact List.cons_prefix_cons.mpr ⟨rfl, List.nil_prefix⟩
          · exact List.cons_prefix_cons.mpr ⟨rfl, ih⟩

theorem heeded_append_of_cutsShort (cuts : deadline.CutsShort checks early) :
    deadline.heeded checks (early ++ late) = deadline.heeded checks early := by
  induction early generalizing checks with
  | nil => exact absurd cuts not_cutsShort_nil
  | cons event early ih =>
      cases event with
      | score position => simp only [List.cons_append, heeded, ih (cutsShort_score.mp cuts)]
      | ask =>
          simp only [List.cons_append, heeded]
          split
          · rfl
          · rename_i unpassed
            rw [ih ((cutsShort_ask.mp cuts).resolve_left unpassed)]

theorem heeded_append (whole : ¬deadline.CutsShort checks early) :
    deadline.heeded checks (early ++ late) =
      early ++ deadline.heeded (checks + asks early) late := by
  induction early generalizing checks with
  | nil => simp
  | cons event early ih =>
      cases event with
      | score position =>
          rw [cutsShort_score] at whole
          simp only [List.cons_append, heeded, ih whole, asks_score]
      | ask =>
          rw [cutsShort_ask, not_or] at whole
          simp only [List.cons_append, heeded, if_neg whole.1, ih whole.2, asks_ask]
          rw [Nat.add_assoc, Nat.add_comm 1]

theorem heeded_eq (whole : ¬deadline.CutsShort checks course) :
    deadline.heeded checks course = course := by
  have appended : deadline.heeded checks (course ++ []) =
      course ++ deadline.heeded (checks + asks course) [] := heeded_append whole
  simpa [heeded] using appended

/-- A course that is cut short ends with a question, the only one that is answered with yes. -/
theorem exists_heeded_eq (cuts : deadline.CutsShort checks course) :
    ∃ done, deadline.heeded checks course = done ++ [.ask] ∧
      ¬deadline.CutsShort checks done ∧ deadline.passed (checks + asks done + 1) = true := by
  induction course generalizing checks with
  | nil => exact absurd cuts not_cutsShort_nil
  | cons event later ih =>
      cases event with
      | score position =>
          rcases ih (cutsShort_score.mp cuts) with ⟨done, done_eq, whole, passed⟩
          refine ⟨.score position :: done, ?_, by simpa using whole, by simpa using passed⟩
          rw [heeded, done_eq, List.cons_append]
      | ask =>
          simp only [heeded]
          split
          · rename_i passed
            exact ⟨[], rfl, not_cutsShort_nil, passed⟩
          · rename_i unpassed
            rcases ih ((cutsShort_ask.mp cuts).resolve_left unpassed) with
              ⟨done, done_eq, whole, passed⟩
            refine ⟨.ask :: done, by rw [done_eq, List.cons_append], by simp [unpassed, whole], ?_⟩
            rwa [asks_ask, Nat.add_comm (asks done), ← Nat.add_assoc]

end Deadline

end GameSearch
