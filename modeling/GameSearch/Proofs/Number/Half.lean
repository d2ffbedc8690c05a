import GameSearch.Proofs.Number.Whole

/-!
# Half doubles

Half an integer is a double as well if the integer is one. Halves and integers add up exactly as
long as the sum, counted in halves, fits into the mantissa.
-/

namespace GameSearch

namespace Double

open Float.Model Float.Model.UnpackedFloat

theorem moderate_half : Moderate (-1) := ⟨by decide, by decide⟩

theorem unpack_half : (0.5 : Float).toModel.unpack =
    .finite .positive (2 ^ 52) (-53) (by decide) := rfl

/-- What a double is worth that is counted in halves. -/
theorem extent_eq_half_iff {double : Float} {value : Int} :
    Extent.ofFloat double = .finite (value / 2) ↔ Stands (-1) double.toModel.unpack value := by
  rw [← extent_eq_finite_iff, zpow_neg_one, ← div_eq_mul_inv]

/-- An integer is two halves for each of its units. -/
theorem stands_twice {value : Int} (small : value.natAbs < wholeBound) :
    Stands (-1) (Float.ofInt value).toModel.unpack (2 * value) := by
  have whole := extent_eq_whole_iff.mpr (stands_ofInt small)
  rw [← extent_eq_half_iff, whole]
  push_cast
  rw [mul_div_cancel_left₀ _ two_ne_zero]

/-- Halving an integer is exact. -/
theorem stands_half {value : Nat} (small : value < wholeBound) :
    Stands (-1) (0.5 * Float.ofInt value).toModel.unpack value := by
  cases value with
  | zero => exact rfl
  | succ count =>
      have positive := Nat.succ_pos count
      have halved := roundWithAccuracy_multiple moderate_half .positive positive small 52
      have exponent_eq : -53 + exponentOn 0 (count + 1) =
          exponentOn (-1) (count + 1) - (52 : Nat) := by
        unfold exponentOn
        omega
      have product : UnpackedFloat.mul Format.binary64 (0.5 : Float).toModel.unpack
          (Float.ofNat (count + 1)).toModel.unpack =
            ofMultiple (-1) .positive (count + 1) positive := by
        rw [unpack_half, unpack_ofNat positive small, ← halved, ← exponent_eq, mul_comm]
        rfl
      change Stands (-1) (0.5 * Float.ofNat (count + 1)).toModel.unpack _
      rw [unpack_mul, product, unpack_pack_ofMultiple moderate_half .positive positive small]
      exact stands_ofMultiple positive small

end Double

end GameSearch
