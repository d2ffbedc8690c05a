import GameSearch.Proofs.Number.Place
import GameSearch.Search.Tracker

/-!
# The best score on the line

A mover who seeks the least score is one who seeks the greatest score on the mirrored line.
`Aim.rank` puts a score on the line as a mover sees it, so that better always means further up and
one argument serves both aims.
-/

namespace GameSearch

variable {Action : Type} {aim : Aim}

namespace Aim

/-- The place of a score on the line of a mover who climbs. -/
noncomputable def rank (aim : Aim) (score : Number) : EReal :=
  match aim with
  | .greatest => score.place
  | .least => -score.place

/-- The other aim. -/
def opposite : Aim → Aim
  | .greatest => .least
  | .least => .greatest

theorem eq_or_eq_opposite (aim other : Aim) : other = aim ∨ other = aim.opposite := by
  cases aim <;> cases other <;> decide

@[simp]
theorem rank_opposite {score : Number} : aim.opposite.rank score = -aim.rank score := by
  cases aim with
  | greatest => rfl
  | least => exact (neg_neg score.place).symm

theorem prefers_iff {score other : Number} (scoreDefined : score.IsDefined)
    (otherDefined : other.IsDefined) :
    aim.prefers score other = true ↔ aim.rank other < aim.rank score := by
  cases aim with
  | greatest => exact Number.less_iff otherDefined scoreDefined
  | least => exact (Number.less_iff scoreDefined otherDefined).trans EReal.neg_lt_neg_iff.symm

theorem isDefined_of_prefers {score other : Number} (better : aim.prefers score other = true) :
    score.IsDefined ∧ other.IsDefined := by
  cases aim with
  | greatest => exact (Number.isDefined_of_less better).symm
  | least => exact Number.isDefined_of_less better

theorem rank_eq_of_same (aim : Aim) {score other : Number} (same : score.same other = true) :
    aim.rank score = aim.rank other := by
  simp only [Number.same_eq_extent, Bool.and_eq_true, beq_iff_eq] at same
  cases aim <;> simp only [rank, Number.place, same.1]

@[simp]
theorem isDefined_baseline : aim.baseline.IsDefined := by
  cases aim <;> simp [baseline]

@[simp]
theorem rank_baseline : aim.rank aim.baseline = ⊥ := by
  cases aim <;> simp [baseline, rank]

theorem rank_greatest_int_le {left right : Int} :
    greatest.rank (.int left) ≤ greatest.rank (.int right) ↔ left ≤ right := by
  simp only [rank, Number.place_int, EReal.coe_le_coe_iff, Int.cast_le]

theorem bot_lt_rank_of_isInteger {score : Number} (aim : Aim) (integer : score.IsInteger) :
    ⊥ < aim.rank score := by
  cases aim with
  | greatest => exact integer.bot_lt_place
  | least => exact EReal.neg_top.symm.trans_lt (EReal.neg_lt_neg_iff.mpr integer.place_lt_top)

theorem rank_lt_top_of_isInteger {score : Number} (aim : Aim) (integer : score.IsInteger) :
    aim.rank score < ⊤ := by
  cases aim with
  | greatest => exact integer.place_lt_top
  | least => exact (EReal.neg_lt_neg_iff.mpr integer.bot_lt_place).trans_eq EReal.neg_bot

end Aim

namespace Tracker

variable {tracker : Tracker Action} {action : Action} {score : Number}

/-- Stores the first of the best actions of a list that improve on the tracker. -/
def insertAll (tracker : Tracker Action) (aim : Aim) (scored : List (Action × Number)) :
    Tracker Action :=
  scored.foldl (fun best entry => best.insert aim entry.1 entry.2) tracker

@[simp]
theorem insertAll_cons {entry : Action × Number} {scored : List (Action × Number)} :
    tracker.insertAll aim (entry :: scored) =
      (tracker.insert aim entry.1 entry.2).insertAll aim scored := rfl

@[simp]
theorem truncated_insert : (tracker.insert aim action score).truncated = tracker.truncated := by
  unfold insert
  split <;> rfl

theorem insert_of_lt (trackerDefined : tracker.score.IsDefined) (scoreDefined : score.IsDefined)
    (better : aim.rank tracker.score < aim.rank score) :
    tracker.insert aim action score = ⟨score, some action, tracker.truncated⟩ := by
  rw [insert, if_pos ((Aim.prefers_iff scoreDefined trackerDefined).mpr better)]

theorem insert_of_le (trackerDefined : tracker.score.IsDefined) (scoreDefined : score.IsDefined)
    (worse : aim.rank score ≤ aim.rank tracker.score) :
    tracker.insert aim action score = tracker := by
  apply if_neg
  rw [Aim.prefers_iff scoreDefined trackerDefined]
  exact not_lt.mpr worse

theorem rank_insert (aim : Aim) (action : Action) (trackerDefined : tracker.score.IsDefined)
    (scoreDefined : score.IsDefined) :
    aim.rank (tracker.insert aim action score).score =
      max (aim.rank tracker.score) (aim.rank score) := by
  rcases lt_or_ge (aim.rank tracker.score) (aim.rank score) with better | worse
  · rw [insert_of_lt trackerDefined scoreDefined better, max_eq_right better.le]
  · rw [insert_of_le trackerDefined scoreDefined worse, max_eq_left worse]

/-- Whether a tracker holds an integer together with its action and was not cut short. -/
def HoldsInteger (tracker : Tracker Action) : Prop :=
  ∃ (value : Int) (action : Action), tracker = ⟨.int value, some action, false⟩

/-- Whether integers at most were inserted into a fresh tracker. -/
def SawIntegers (tracker : Tracker Action) (aim : Aim) : Prop :=
  tracker = .start aim.baseline ∨ tracker.HoldsInteger

theorem HoldsInteger.hasAction (holds : tracker.HoldsInteger) : tracker.hasAction = true := by
  rcases holds with ⟨value, action, rfl⟩
  rfl

theorem HoldsInteger.isInteger (holds : tracker.HoldsInteger) : tracker.score.IsInteger := by
  rcases holds with ⟨value, action, rfl⟩
  exact ⟨value, rfl⟩

theorem SawIntegers.isInteger (saw : tracker.SawIntegers aim) (found : tracker.hasAction = true) :
    tracker.score.IsInteger := by
  rcases saw with rfl | holds
  · cases found
  · exact holds.isInteger

theorem SawIntegers.isDefined (saw : tracker.SawIntegers aim) : tracker.score.IsDefined := by
  rcases saw with rfl | ⟨value, action, rfl⟩
  · exact Aim.isDefined_baseline
  · exact Number.isDefined_int value

theorem SawIntegers.not_truncated (saw : tracker.SawIntegers aim) :
    tracker.truncated = false := by
  rcases saw with rfl | ⟨value, action, rfl⟩ <;> rfl

/-- The first integer improves on the baseline, so from then on there is an action. -/
theorem SawIntegers.insert (saw : tracker.SawIntegers aim) (action : Action)
    (integer : score.IsInteger) : (tracker.insert aim action score).HoldsInteger := by
  rcases lt_or_ge (aim.rank tracker.score) (aim.rank score) with better | worse
  · rw [insert_of_lt saw.isDefined integer.isDefined better, saw.not_truncated]
    rcases integer with ⟨value, rfl⟩
    exact ⟨value, action, rfl⟩
  · rw [insert_of_le saw.isDefined integer.isDefined worse]
    rcases saw with rfl | holds
    · have above := Aim.bot_lt_rank_of_isInteger aim integer
      exact absurd (worse.trans_eq Aim.rank_baseline) (not_le.mpr above)
    · exact holds

theorem HoldsInteger.insertAll {scored : List (Action × Number)} (holds : tracker.HoldsInteger)
    (aim : Aim) (integers : ∀ entry ∈ scored, entry.2.IsInteger) :
    (tracker.insertAll aim scored).HoldsInteger := by
  induction scored generalizing tracker with
  | nil => exact holds
  | cons entry scored ih =>
      simp only [List.forall_mem_cons] at integers
      have saw : tracker.SawIntegers aim := .inr holds
      exact ih (saw.insert entry.1 integers.1) integers.2

/-- What is stored in the end was there from the start or is one of the actions of the list. -/
theorem insertAll_eq_or (tracker : Tracker Action) (aim : Aim) (scored : List (Action × Number)) :
    tracker.insertAll aim scored = tracker ∨
      ∃ entry ∈ scored,
        tracker.insertAll aim scored = ⟨entry.2, some entry.1, tracker.truncated⟩ := by
  induction scored generalizing tracker with
  | nil => exact .inl rfl
  | cons entry scored ih =>
      rw [insertAll_cons]
      rcases ih (tracker.insert aim entry.1 entry.2) with kept | ⟨later, mem, stored⟩
      · rw [kept]
        unfold insert
        split
        · exact .inr ⟨entry, List.mem_cons_self, rfl⟩
        · exact .inl rfl
      · rw [stored, truncated_insert]
        exact .inr ⟨later, List.mem_cons_of_mem entry mem, rfl⟩

/-- Inserting never loses ground. -/
theorem SawIntegers.rank_le_insertAll {scored : List (Action × Number)}
    (saw : tracker.SawIntegers aim) (integers : ∀ entry ∈ scored, entry.2.IsInteger) :
    aim.rank tracker.score ≤ aim.rank (tracker.insertAll aim scored).score := by
  induction scored generalizing tracker with
  | nil => exact le_rfl
  | cons entry scored ih =>
      simp only [List.forall_mem_cons] at integers
      have first := le_max_left (aim.rank tracker.score) (aim.rank entry.2)
      rw [← rank_insert aim entry.1 saw.isDefined integers.1.isDefined] at first
      exact first.trans (ih (.inr (saw.insert entry.1 integers.1)) integers.2)

/-- Nothing in the list is better than what is stored in the end. -/
theorem SawIntegers.rank_le_of_mem {scored : List (Action × Number)}
    (saw : tracker.SawIntegers aim) (integers : ∀ entry ∈ scored, entry.2.IsInteger)
    {entry : Action × Number} (mem : entry ∈ scored) :
    aim.rank entry.2 ≤ aim.rank (tracker.insertAll aim scored).score := by
  induction scored generalizing tracker with
  | nil => cases mem
  | cons first scored ih =>
      simp only [List.forall_mem_cons] at integers
      have inserted : (tracker.insert aim first.1 first.2).SawIntegers aim :=
        .inr (saw.insert first.1 integers.1)
      rw [insertAll_cons]
      rcases List.mem_cons.mp mem with rfl | later
      · apply le_trans _ (inserted.rank_le_insertAll integers.2)
        rw [rank_insert aim entry.1 saw.isDefined integers.1.isDefined]
        exact le_max_right _ _
      · exact ih inserted integers.2 later

end Tracker

end GameSearch
