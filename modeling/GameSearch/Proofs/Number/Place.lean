import GameSearch.Number
import Mathlib.Data.EReal.Operations

/-!
# Scores on the extended line

Comparison of scores is comparison of places on the extended real line, as long as none of the
scores is undefined. This turns questions about searches, which compare integers with each other and
with the infinities, into questions about a linear order.
-/

namespace GameSearch

/-- The place of an extent on the line; what is undefined is put at zero and never compared. -/
noncomputable def Extent.place : Extent → EReal
  | .undefined => 0
  | .below => ⊥
  | .finite value => ((value : ℝ) : EReal)
  | .above => ⊤

theorem Extent.less_iff {left right : Extent} (leftDefined : left ≠ .undefined)
    (rightDefined : right ≠ .undefined) :
    left.less right = true ↔ left.place < right.place := by
  cases left <;> cases right <;> simp_all [less, place, EReal.coe_lt_top, EReal.bot_lt_coe]

theorem Extent.place_injective {left right : Extent} (leftDefined : left ≠ .undefined)
    (rightDefined : right ≠ .undefined) (same : left.place = right.place) : left = right := by
  cases left <;> cases right <;> simp_all [place]

theorem Extent.defined_of_less {left right : Extent} (less : left.less right = true) :
    left ≠ .undefined ∧ right ≠ .undefined := by
  cases left <;> cases right <;> simp_all [Extent.less]

namespace Number

/-- Whether a score is an integer. -/
def IsInteger (number : Number) : Prop := ∃ value : Int, number = .int value

/-- Whether a score can be compared. -/
def IsDefined (number : Number) : Prop := number.extent ≠ .undefined

instance (number : Number) : Decidable number.IsDefined :=
  inferInstanceAs (Decidable (number.extent ≠ .undefined))

/-- The place of a score on the line. -/
noncomputable def place (number : Number) : EReal := number.extent.place

@[simp]
theorem isDefined_int (value : Int) : (Number.int value).IsDefined := by
  simp [IsDefined, extent]

theorem IsInteger.isDefined {number : Number} (integer : number.IsInteger) : number.IsDefined := by
  rcases integer with ⟨value, rfl⟩
  exact isDefined_int value

@[simp]
theorem isDefined_below : below.IsDefined := by decide

@[simp]
theorem isDefined_above : above.IsDefined := by decide

@[simp]
theorem place_int (value : Int) : (Number.int value).place = ((value : ℝ) : EReal) := by
  simp [place, extent, Extent.place]

theorem IsInteger.bot_lt_place {number : Number} (integer : number.IsInteger) :
    ⊥ < number.place := by
  rcases integer with ⟨value, rfl⟩
  rw [place_int]
  exact EReal.bot_lt_coe _

theorem IsInteger.place_lt_top {number : Number} (integer : number.IsInteger) :
    number.place < ⊤ := by
  rcases integer with ⟨value, rfl⟩
  rw [place_int]
  exact EReal.coe_lt_top _

@[simp]
theorem extent_int (value : Int) : (Number.int value).extent = .finite value := rfl

@[simp]
theorem extent_below : below.extent = .below := by decide

@[simp]
theorem extent_above : above.extent = .above := by decide

@[simp]
theorem place_below : below.place = ⊥ := by
  rw [place, extent_below, Extent.place]

@[simp]
theorem place_above : above.place = ⊤ := by
  rw [place, extent_above, Extent.place]

theorem less_eq_extent (left right : Number) :
    left.less right = left.extent.less right.extent := by
  cases left <;> cases right <;> simp [less, extent, Extent.less]

theorem same_eq_extent (left right : Number) :
    left.same right = (left.extent == right.extent && left.extent != .undefined) := by
  rw [Bool.eq_iff_iff]
  cases left <;> cases right <;> simp [same, extent]

theorem same_comm (left right : Number) : left.same right = right.same left := by
  rw [same_eq_extent, same_eq_extent]
  by_cases same : left.extent = right.extent
  · rw [same]
  · rw [beq_false_of_ne same, beq_false_of_ne (Ne.symm same), Bool.false_and, Bool.false_and]

theorem isDefined_of_less {left right : Number} (less : left.less right = true) :
    left.IsDefined ∧ right.IsDefined :=
  Extent.defined_of_less (less_eq_extent left right ▸ less)

theorem isDefined_of_same {left right : Number} (same : left.same right = true) :
    left.IsDefined ∧ right.IsDefined := by
  simp only [same_eq_extent, Bool.and_eq_true, beq_iff_eq, bne_iff_ne] at same
  exact ⟨same.2, fun undefined => same.2 (same.1.trans undefined)⟩

theorem same_self {number : Number} (defined : number.IsDefined) : number.same number = true := by
  simp only [same_eq_extent, Bool.and_eq_true, beq_self_eq_true, true_and, bne_iff_ne]
  exact defined

theorem less_iff {left right : Number} (leftDefined : left.IsDefined)
    (rightDefined : right.IsDefined) :
    left.less right = true ↔ left.place < right.place := by
  rw [less_eq_extent]
  exact Extent.less_iff leftDefined rightDefined

theorem atMost_iff {left right : Number} (leftDefined : left.IsDefined)
    (rightDefined : right.IsDefined) :
    left.atMost right = true ↔ left.place ≤ right.place := by
  rw [atMost, Bool.or_eq_true, less_iff leftDefined rightDefined, same_eq_extent, le_iff_lt_or_eq]
  apply or_congr_right
  simp only [Bool.and_eq_true, beq_iff_eq, bne_iff_ne]
  constructor
  · exact fun same => congrArg Extent.place same.1
  · exact fun same => ⟨Extent.place_injective leftDefined rightDefined same, leftDefined⟩

end Number

end GameSearch
