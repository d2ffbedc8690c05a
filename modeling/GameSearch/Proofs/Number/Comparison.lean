import GameSearch.Proofs.Number.Grid

/-!
# Comparing doubles

Doubles are compared by their signs, exponents and mantissas. For the mantissas and exponents that
unpacking gives this is the comparison of the numbers they stand for: a greater exponent comes with
a mantissa that has its leading bit, and two mantissas never differ by a factor of two.
-/

namespace GameSearch

/-- How two extents compare; an undefined one does not. -/
def Extent.order : Extent → Extent → Option Ordering
  | .undefined, _ => none
  | _, .undefined => none
  | .finite left, .finite right => some (compare left right)
  | .below, .below => some .eq
  | .above, .above => some .eq
  | .below, _ => some .lt
  | _, .below => some .gt
  | _, .above => some .lt
  | .above, _ => some .gt

theorem Extent.order_eq_lt_iff {left right : Extent} :
    left.order right = some .lt ↔ left.less right = true := by
  cases left <;> cases right <;> simp [order, less, compare_lt_iff_lt]

theorem Extent.order_eq_eq_iff {left right : Extent} :
    left.order right = some .eq ↔ left = right ∧ left ≠ .undefined := by
  cases left <;> cases right <;> simp [order]

theorem swap_compare (left right : Rat) : (compare left right).swap = compare (-left) (-right) := by
  rcases lt_trichotomy left right with less | rfl | greater
  · rw [compare_lt_iff_lt.mpr less, compare_gt_iff_gt.mpr (neg_lt_neg less)]
    rfl
  · rw [compare_eq_iff_eq.mpr rfl, compare_eq_iff_eq.mpr rfl]
    rfl
  · rw [compare_gt_iff_gt.mpr greater, compare_lt_iff_lt.mpr (neg_lt_neg greater)]
    rfl

namespace Double

open Float.Model Float.Model.UnpackedFloat

/-- Whether a mantissa fits into 53 bits, and has the leading one of them unless the exponent is the
least one. -/
def Canonical : UnpackedFloat → Prop
  | .finite _ mantissa exponent _ =>
    mantissa < 2 ^ 53 ∧ -1074 ≤ exponent ∧ (2 ^ 52 ≤ mantissa ∨ exponent = -1074)
  | _ => True

theorem canonical_unpack (bits : BitVec Format.binary64.numBits) :
    Canonical (UnpackedFloat.unpack Format.binary64 bits) := by
  have bias : (Format.binary64.exponentBias : Int) + Format.binary64.mantissaBitsWithoutImplicit =
      1075 := by decide
  have fraction : (@unpackMantissa Format.binary64 bits).toNat < 2 ^ 52 :=
    (@unpackMantissa Format.binary64 bits).isLt
  simp only [UnpackedFloat.unpack, bias]
  split
  · split <;> trivial
  · split
    · rename_i least
      split
      · trivial
      · simp only [Canonical, least]
        refine ⟨fraction.trans (by decide), ?_, .inr ?_⟩ <;> rfl
    · rename_i not_least
      have nonzero : (@unpackExponent Format.binary64 bits).toNat ≠ 0 := by
        intro zero
        exact not_least (BitVec.toNat_inj.mp zero)
      have leading : (1#1 ++ @unpackMantissa Format.binary64 bits).toNat =
          2 ^ 52 + (@unpackMantissa Format.binary64 bits).toNat := toNat_one_append _
      simp only [Canonical, leading]
      omega

theorem canonical_toModel (value : Float) : Canonical value.toModel.unpack := canonical_unpack _

section

variable {sign otherSign : Sign} {mantissa otherMantissa : Nat} {exponent otherExponent : Int}
  {positive : 0 < mantissa} {otherPositive : 0 < otherMantissa}

/-- The double with the greater exponent is the greater one. -/
theorem magnitude_lt_of_exponent_lt
    (canonical : Canonical (.finite sign mantissa exponent positive))
    (other : Canonical (.finite otherSign otherMantissa otherExponent otherPositive))
    (less : exponent < otherExponent) :
    (mantissa * 2 ^ exponent : Rat) < otherMantissa * 2 ^ otherExponent := by
  obtain ⟨small, least, -⟩ := canonical
  have leading : 2 ^ 52 ≤ otherMantissa := by
    apply other.2.2.resolve_right
    omega
  have scale : (0 : Rat) < 2 ^ exponent := by positivity
  have split : (2 : Rat) ^ otherExponent = 2 ^ (otherExponent - exponent) * 2 ^ exponent := by
    rw [← zpow_add₀ two_ne_zero, sub_add_cancel]
  have doubled : (2 : Rat) ≤ 2 ^ (otherExponent - exponent) := by
    calc (2 : Rat) = 2 ^ (1 : Int) := (zpow_one 2).symm
      _ ≤ 2 ^ (otherExponent - exponent) := zpow_le_zpow_right₀ one_le_two (by omega)
  rw [split, ← mul_assoc]
  apply mul_lt_mul_of_pos_right _ scale
  calc (mantissa : Rat) < 2 ^ 53 := by exact_mod_cast small
    _ = 2 ^ 52 * 2 := by norm_num
    _ ≤ otherMantissa * 2 ^ (otherExponent - exponent) := by
        apply mul_le_mul _ doubled zero_le_two (Nat.cast_nonneg _)
        exact_mod_cast leading

/-- Comparing exponents first and then mantissas is comparing magnitudes. -/
theorem compare_magnitude (canonical : Canonical (.finite sign mantissa exponent positive))
    (other : Canonical (.finite otherSign otherMantissa otherExponent otherPositive)) :
    (compare exponent otherExponent).then (compare mantissa otherMantissa) =
      compare (mantissa * 2 ^ exponent : Rat) (otherMantissa * 2 ^ otherExponent) := by
  rcases lt_trichotomy exponent otherExponent with less | rfl | greater
  · rw [compare_lt_iff_lt.mpr less,
      compare_lt_iff_lt.mpr (magnitude_lt_of_exponent_lt canonical other less)]
    rfl
  · have scale : (0 : Rat) < 2 ^ exponent := by positivity
    rw [compare_eq_iff_eq.mpr rfl, Ordering.then]
    rcases lt_trichotomy mantissa otherMantissa with less | rfl | greater
    · rw [compare_lt_iff_lt.mpr less, eq_comm, compare_lt_iff_lt]
      exact mul_lt_mul_of_pos_right (by exact_mod_cast less) scale
    · rw [compare_eq_iff_eq.mpr rfl, compare_eq_iff_eq.mpr rfl]
    · rw [compare_gt_iff_gt.mpr greater, eq_comm, compare_gt_iff_gt]
      exact mul_lt_mul_of_pos_right (by exact_mod_cast greater) scale
  · rw [compare_gt_iff_gt.mpr greater,
      compare_gt_iff_gt.mpr (magnitude_lt_of_exponent_lt other canonical greater)]
    rfl

end

/-! ### Extents -/

/-- The extent of an unpacked double. -/
def extent : UnpackedFloat → Extent
  | .notANumber => .undefined
  | .infinity .negative => .below
  | .infinity .positive => .above
  | .zero _ => .finite 0
  | .finite .negative mantissa exponent _ => .finite (-(mantissa * 2 ^ exponent))
  | .finite .positive mantissa exponent _ => .finite (mantissa * 2 ^ exponent)

theorem extent_eq (value : Float) : Extent.ofFloat value = extent value.toModel.unpack := by
  rw [Extent.ofFloat, shape_eq]
  cases value.toModel.unpack with
  | notANumber => rfl
  | infinity sign => cases sign <;> simp [Shape.ofUnpacked, extent]
  | zero sign => cases sign <;> simp [Shape.ofUnpacked, extent]
  | finite sign => cases sign <;> simp only [Shape.ofUnpacked, extent, mkRat_eq_mul] <;> rfl

theorem magnitude_pos {mantissa : Nat} (positive : 0 < mantissa) (exponent : Int) :
    (0 : Rat) < mantissa * 2 ^ exponent := by
  positivity

/-- Comparing two unpacked doubles is comparing their extents. -/
theorem compare_eq {left right : UnpackedFloat} (canonical : Canonical left)
    (other : Canonical right) :
    UnpackedFloat.compare left right = (extent left).order (extent right) := by
  cases left with
  | notANumber => rfl
  | infinity sign =>
      cases right with
      | notANumber => cases sign <;> rfl
      | infinity otherSign => cases sign <;> cases otherSign <;> rfl
      | zero => cases sign <;> rfl
      | finite otherSign => cases sign <;> cases otherSign <;> rfl
  | zero sign =>
      cases right with
      | notANumber => rfl
      | infinity otherSign => cases otherSign <;> rfl
      | zero => rfl
      | finite otherSign mantissa exponent positive =>
          have above := magnitude_pos positive exponent
          cases otherSign with
          | negative => exact congrArg some (compare_gt_iff_gt.mpr (neg_lt_zero.mpr above)).symm
          | positive => exact congrArg some (compare_lt_iff_lt.mpr above).symm
  | finite sign mantissa exponent positive =>
      have above := magnitude_pos positive exponent
      cases right with
      | notANumber => cases sign <;> rfl
      | infinity otherSign => cases sign <;> cases otherSign <;> rfl
      | zero =>
          cases sign with
          | negative => exact congrArg some (compare_lt_iff_lt.mpr (neg_lt_zero.mpr above)).symm
          | positive => exact congrArg some (compare_gt_iff_gt.mpr above).symm
      | finite otherSign otherMantissa otherExponent otherPositive =>
          have otherAbove := magnitude_pos otherPositive otherExponent
          have magnitudes := compare_magnitude canonical other
          cases sign with
          | negative =>
              cases otherSign with
              | negative =>
                  simp only [UnpackedFloat.compare, extent, Extent.order, magnitudes, swap_compare]
              | positive =>
                  exact congrArg some
                    (compare_lt_iff_lt.mpr ((neg_lt_zero.mpr above).trans otherAbove)).symm
          | positive =>
              cases otherSign with
              | negative =>
                  exact congrArg some
                    (compare_gt_iff_gt.mpr ((neg_lt_zero.mpr otherAbove).trans above)).symm
              | positive => simp only [UnpackedFloat.compare, extent, Extent.order, magnitudes]

theorem lt_iff_less (left right : Float) :
    left < right ↔ (Extent.ofFloat left).less (Extent.ofFloat right) = true := by
  rw [extent_eq, extent_eq, ← Extent.order_eq_lt_iff,
    ← compare_eq (canonical_toModel left) (canonical_toModel right)]
  change (decide (left.toModel < right.toModel) = true) ↔ _
  rw [decide_eq_true_iff]
  exact beq_iff_eq

theorem beq_iff_same (left right : Float) : (left == right) = true ↔
    Extent.ofFloat left = Extent.ofFloat right ∧ Extent.ofFloat left ≠ .undefined := by
  rw [extent_eq, extent_eq, ← Extent.order_eq_eq_iff,
    ← compare_eq (canonical_toModel left) (canonical_toModel right)]
  change (UnpackedFloat.compare left.toModel.unpack right.toModel.unpack == some .eq) = true ↔ _
  exact beq_iff_eq

end Double

end GameSearch
