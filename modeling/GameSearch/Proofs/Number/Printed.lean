import GameSearch.Decimal.Fixed
import GameSearch.Proofs.Number.Half

/-!
# Printed halves

Sums of integers and of halves that are not negative carry no minus sign, whether they are rounded
or not. One decimal place is enough to print half an integer without rounding it once more.
-/

namespace GameSearch

namespace Double

open Float.Model Float.Model.UnpackedFloat

/-- Whether an unpacked double is a number without minus sign. -/
def Unsigned : UnpackedFloat → Prop
  | .notANumber => False
  | .infinity sign | .zero sign | .finite sign _ _ _ => sign = .positive

theorem unsigned_roundWithAccuracy (mantissa : Nat) (exponent : Int) (accuracy : Accuracy) :
    Unsigned (roundWithAccuracy Format.binary64 .positive mantissa exponent accuracy) := by
  simp only [roundWithAccuracy]
  split <;> rfl

theorem unsigned_normalize {mantissa : Int} (nonneg : 0 ≤ mantissa) (exponent : Int) :
    Unsigned (UnpackedFloat.normalize Format.binary64 mantissa exponent .positive) := by
  unfold UnpackedFloat.normalize
  rcases nonneg.eq_or_lt with rfl | positive
  · rfl
  · rw [compare_gt_iff_gt.mpr positive]
    exact unsigned_roundWithAccuracy _ _ _

/-- Bits of a double whose exponent is not the greatest one. -/
theorem unsigned_packComponents {exponent : BitVec 11} (not_greatest : exponent ≠ -1#11)
    (mantissa : BitVec 52) :
    Unsigned (UnpackedFloat.unpack Format.binary64
      (packComponents Format.binary64 .positive exponent mantissa)) := by
  simp only [UnpackedFloat.unpack, unpackMantissa_packComponents, unpackExponent_packComponents,
    unpackSign_packComponents, Sign.ofBitVec_toBitVec]
  rw [if_neg not_greatest]
  split
  · split <;> rfl
  · rfl

theorem unsigned_packedInfinity :
    Unsigned (UnpackedFloat.unpack Format.binary64 (packedInfinity Format.binary64 .positive)) :=
  rfl

theorem unsigned_pack {unpacked : UnpackedFloat} (unsigned : Unsigned unpacked) :
    Unsigned (UnpackedFloat.unpack Format.binary64
      (UnpackedFloat.pack Format.binary64 unpacked)) := by
  cases unpacked with
  | notANumber => exact unsigned.elim
  | infinity sign =>
      cases unsigned
      exact unsigned_packedInfinity
  | zero sign =>
      rw [UnpackedFloat.pack, unpack_packedZero]
      exact unsigned
  | finite sign mantissa exponent positive =>
      cases unsigned
      simp only [UnpackedFloat.pack]
      split
      · exact unsigned_packedInfinity
      · rename_i finite
        split
        · apply unsigned_packComponents
          intro greatest
          have biased := congrArg BitVec.toNat greatest
          change _ % 2 ^ 11 = 2047 at biased
          change ¬2 ^ 11 ≤ _ at finite
          omega
        · apply unsigned_packComponents
          decide

theorem unsigned_add {left right : Float} (first : Unsigned left.toModel.unpack)
    (second : Unsigned right.toModel.unpack) : Unsigned (left + right).toModel.unpack := by
  rw [unpack_add]
  apply unsigned_pack
  revert first second
  generalize left.toModel.unpack = left
  generalize right.toModel.unpack = right
  intro first second
  cases left with
  | notANumber => exact first.elim
  | infinity sign =>
      cases first
      cases right with
      | notANumber => exact second.elim
      | infinity => cases second; rfl
      | zero | finite => rfl
  | zero sign =>
      cases first
      cases right with
      | notANumber => exact second.elim
      | zero => cases second; rfl
      | infinity | finite => exact second
  | finite sign mantissa exponent positive =>
      cases first
      cases right with
      | notANumber => exact second.elim
      | infinity => exact second
      | zero => rfl
      | finite =>
          cases second
          apply unsigned_normalize
          exact add_nonneg (Int.natCast_nonneg _) (Int.natCast_nonneg _)

theorem unsigned_halved {double : Float} (unsigned : Unsigned double.toModel.unpack) :
    Unsigned (0.5 * double).toModel.unpack := by
  rw [unpack_mul, unpack_half]
  apply unsigned_pack
  revert unsigned
  generalize double.toModel.unpack = unpacked
  intro unsigned
  cases unpacked with
  | notANumber => exact unsigned.elim
  | infinity => cases unsigned; rfl
  | zero => cases unsigned; rfl
  | finite => cases unsigned; exact unsigned_roundWithAccuracy _ _ _

theorem unsigned_ofInt {value : Int} (nonneg : 0 ≤ value) (small : value < wholeBound) :
    Unsigned (Float.ofInt value).toModel.unpack := by
  obtain ⟨value, rfl⟩ := Int.eq_ofNat_of_zero_le nonneg
  cases value with
  | zero => exact rfl
  | succ count =>
      change Unsigned (Float.ofNat (count + 1)).toModel.unpack
      rw [unpack_ofNat (Nat.succ_pos count) (by omega)]
      rfl

theorem unsigned_foldl {α : Type} {items : List α} {number : α → Float} {total : Float}
    (unsigned : ∀ item ∈ items, Unsigned (number item).toModel.unpack)
    (first : Unsigned total.toModel.unpack) :
    Unsigned (items.foldl (fun total item => total + number item) total).toModel.unpack := by
  induction items generalizing total with
  | nil => exact first
  | cons item items ih =>
      rw [List.forall_mem_cons] at unsigned
      exact ih unsigned.2 (unsigned_add first unsigned.1)

/-! ### One decimal place -/

theorem nearestEven_mul (value : Nat) {denominator : Nat} (positive : 0 < denominator) :
    nearestEven (value * denominator) denominator = value := by
  simp only [nearestEven, Nat.mul_mod_left, Nat.mul_div_cancel _ positive]
  rw [if_pos (by omega)]

theorem fixedPoint_halves (value : Nat) : fixedPoint 1 (5 * value) =
    toString (value / 2) ++ (if value % 2 = 0 then ".0" else ".5") := by
  have whole : 5 * value / 10 = value / 2 := by omega
  have tenths : 5 * value % 10 = 5 * (value % 2) := by omega
  change toString (5 * value / 10) ++ "." ++ padZeros 1 (toString (5 * value % 10)) = _
  rw [whole, tenths, String.append_assoc]
  rcases Nat.mod_two_eq_zero_or_one value with even | odd
  · rw [even]
    rfl
  · rw [odd]
    rfl

theorem fixedUnits_halves {mantissa value : Nat} {exponent : Int}
    (value_eq : mantissa * 2 ^ (exponent - -1).toNat = value * 2 ^ (-1 - exponent).toNat) :
    fixedUnits 1 mantissa exponent = 5 * value := by
  have scaled : mantissa * 2 ^ exponent.toNat * 10 = 5 * value * 2 ^ (-exponent).toNat := by
    rcases lt_or_ge exponent 0 with negative | nonneg
    · have up : (exponent - -1).toNat = 0 := by omega
      have none : exponent.toNat = 0 := by omega
      have down : (-exponent).toNat = (-1 - exponent).toNat + 1 := by omega
      rw [up, pow_zero, mul_one] at value_eq
      rw [none, down, value_eq, pow_succ]
      ring
    · have up : (exponent - -1).toNat = exponent.toNat + 1 := by omega
      have none : (-exponent).toNat = 0 := by omega
      have down : (-1 - exponent).toNat = 0 := by omega
      rw [up, down, pow_zero, mul_one, pow_succ] at value_eq
      rw [none, pow_zero, mul_one, ← value_eq]
      ring
  change nearestEven (mantissa * 2 ^ exponent.toNat * 10) (2 ^ (-exponent).toNat) = _
  rw [scaled, nearestEven_mul _ (by positivity)]

/-- A half that is not negative is printed in full. -/
theorem fixed_halves {double : Float} {value : Nat} (unsigned : Unsigned double.toModel.unpack)
    (stands : Stands (-1) double.toModel.unpack value) :
    Double.fixed 1 double = toString (value / 2) ++ (if value % 2 = 0 then ".0" else ".5") := by
  have units {mantissa : Nat} {exponent : Int}
      (shape_eq : Double.shape double = .finite false mantissa exponent)
      (units_eq : fixedUnits 1 mantissa exponent = 5 * value) :
      Double.fixed 1 double = toString (value / 2) ++ (if value % 2 = 0 then ".0" else ".5") := by
    rw [Double.fixed, shape_eq]
    simp only [Bool.false_eq_true, if_false, String.empty_append, units_eq, fixedPoint_halves]
  cases unpacked_eq : double.toModel.unpack with
  | notANumber =>
      rw [unpacked_eq] at stands
      exact stands.elim
  | infinity =>
      rw [unpacked_eq] at stands
      exact stands.elim
  | zero sign =>
      rw [unpacked_eq] at stands unsigned
      cases unsigned
      have none : value = 0 := Int.natCast_eq_zero.mp stands
      apply units (by rw [shape_eq, unpacked_eq]; rfl)
      apply fixedUnits_halves
      rw [none, zero_mul, zero_mul]
  | finite sign mantissa exponent positive =>
      rw [unpacked_eq] at stands unsigned
      cases unsigned
      apply units (by rw [shape_eq, unpacked_eq]; rfl)
      apply fixedUnits_halves
      have value_eq : (mantissa : Int) * 2 ^ (exponent - -1).toNat =
        value * 2 ^ (-1 - exponent).toNat := stands
      exact_mod_cast value_eq

end Double

end GameSearch
