import GameSearch.Proofs.Number.Grid

/-!
# Whole doubles

Every integer below two to the power of 53 is a double, and as long as nothing exceeds this bound,
doubles add up as the integers do that they stand for.
-/

namespace GameSearch

namespace Double

open Float.Model Float.Model.UnpackedFloat

theorem moderate_zero : Moderate 0 := ⟨by decide, by decide⟩

theorem unpack_one : (Float.ofBits 0x3FF0000000000000).toModel.unpack =
    .finite .positive (2 ^ 52) (-52) (by decide) := rfl

theorem ofNat_eq {value : Nat} (small : value < wholeBound) :
    Float.ofNat value = value.toUInt64.toFloat * Float.ofBits 0x3FF0000000000000 := by
  change Float.ofScientific value false 0 = _
  rw [Float.ofScientific, dif_pos ⟨small, Nat.zero_le 22⟩]
  rfl

theorem unpack_ofNat {value : Nat} (positive : 0 < value) (small : value < wholeBound) :
    (Float.ofNat value).toModel.unpack = ofMultiple 0 .positive value positive := by
  have fits : value.toUInt64.toNat = value := by
    apply Nat.mod_eq_of_lt
    exact small.trans (by decide)
  have converted : value.toUInt64.toFloat.toModel.unpack =
      ofMultiple 0 .positive value positive := by
    change unpack Format.binary64 (UnpackedFloat.pack Format.binary64
      (UnpackedFloat.normalize Format.binary64 value.toUInt64.toNat 0 .positive)) = _
    have above : (0 : Int) < value := by omega
    rw [fits, UnpackedFloat.normalize, compare_gt_iff_gt.mpr above, Int.toNat_natCast]
    rw [round_multiple moderate_zero .positive positive small rfl,
      unpack_pack_ofMultiple moderate_zero .positive positive small]
  rw [ofNat_eq small, unpack_mul, converted, unpack_one]
  have product := roundWithAccuracy_multiple moderate_zero .positive positive small 52
  simp only [ofMultiple, UnpackedFloat.mul]
  change unpack Format.binary64 (UnpackedFloat.pack Format.binary64
    (roundWithAccuracy Format.binary64 .positive (fullMantissa value * 2 ^ 52)
      (exponentOn 0 value - (52 : Nat)) .exact)) = _
  rw [product, unpack_pack_ofMultiple moderate_zero .positive positive small]
  rfl

theorem stands_ofInt {value : Int} (small : value.natAbs < wholeBound) :
    Stands 0 (Float.ofInt value).toModel.unpack value := by
  have above : ∀ count : Nat, count + 1 < wholeBound →
      Stands 0 (Float.ofNat (count + 1)).toModel.unpack (count + 1 : Nat) := by
    intro count fits
    rw [unpack_ofNat (Nat.succ_pos count) fits]
    exact stands_ofMultiple (Nat.succ_pos count) fits
  rcases value with (_ | count) | count
  · exact rfl
  · exact above count small
  · exact (opposite_neg (Float.ofNat (count + 1))).stands (above count small)

theorem extent_eq_whole_iff {double : Float} {value : Int} :
    Extent.ofFloat double = .finite value ↔ Stands 0 double.toModel.unpack value := by
  rw [← extent_eq_finite_iff, zpow_zero, mul_one]

end Double

namespace Number

/-- The integer that a whole number stands for. -/
def whole (number : Number) : Int :=
  match number.extent with
  | .finite value => value.num
  | _ => 0

/-- Whether a number is a whole one, as an integer or as a double. -/
def IsWhole (number : Number) : Prop := number.extent = .finite number.whole

instance (number : Number) : Decidable number.IsWhole :=
  inferInstanceAs (Decidable (number.extent = .finite number.whole))

@[simp]
theorem isWhole_int (value : Int) : (Number.int value).IsWhole := rfl

theorem extent_real_zero : (Number.real 0).extent = .finite (0 : Int) := by
  have stands : Double.Stands 0 (Float.ofInt 0).toModel.unpack 0 := Double.stands_ofInt (by decide)
  exact Double.extent_eq_whole_iff.mpr stands

theorem toFloat_stands {number : Number} {value : Int} (whole : number.extent = .finite value)
    (small : value.natAbs < Double.wholeBound) :
    Double.Stands 0 number.toFloat.toModel.unpack value := by
  cases number with
  | int integer =>
      have same : integer = value := by
        rw [extent, Extent.finite.injEq] at whole
        exact_mod_cast whole
      subst same
      exact Double.stands_ofInt small
  | real double => exact Double.extent_eq_whole_iff.mp whole

/-- Whole numbers add up exactly as doubles, as long as they and their sum can be written with 53
bits. -/
theorem extent_add {number other : Number} {value more : Int}
    (first : number.extent = .finite value) (second : other.extent = .finite more)
    (small : value.natAbs < Double.wholeBound) (otherSmall : more.natAbs < Double.wholeBound)
    (sumSmall : (value + more).natAbs < Double.wholeBound) :
    (Number.real (number.toFloat + other.toFloat)).extent = .finite (value + more : Int) :=
  Double.extent_eq_whole_iff.mpr (Double.stands_add Double.moderate_zero
    (toFloat_stands first small) (toFloat_stands second otherSmall) sumSmall)

theorem wholeBound_le_overflow : Double.wholeBound ≤ overflow := by decide

theorem fits_of_extent {number : Number} {value : Int} (whole : number.extent = .finite value)
    (small : value.natAbs < Double.wholeBound) : number.fits := by
  cases number with
  | real double => rfl
  | int integer =>
      rw [extent, Extent.finite.injEq] at whole
      have same : integer = value := by exact_mod_cast whole
      rw [same]
      exact decide_eq_true (small.trans_le wholeBound_le_overflow)

theorem extent_neg {number : Number} {value : Int} (whole : number.extent = .finite value) :
    (-number).extent = .finite (-value : Int) := by
  rw [(opposite_neg number).extent_eq, whole]
  simp [Extent.opposite]

end Number

end GameSearch
