import GameSearch.Proofs.Number.Place
import Mathlib

/-!
# Opposite scores

Rounding is symmetric about zero: opposite doubles add up to opposite sums. Only a sum of zero is
positive whichever way it comes about, so a zero counts as the opposite of either zero. The extent
of a score does not see the sign of a zero.
-/

namespace GameSearch

namespace Double

open Float.Model Float.Model.UnpackedFloat

/-- Whether two unpacked doubles are opposite. A zero is the opposite of either zero. -/
inductive Mirrors : UnpackedFloat → UnpackedFloat → Prop where
  | notANumber : Mirrors .notANumber .notANumber
  | infinity (sign : Sign) : Mirrors (.infinity sign) (.infinity (-sign))
  | zero (sign other : Sign) : Mirrors (.zero sign) (.zero other)
  | finite (sign : Sign) (mantissa : Nat) (exponent : Int) (positive : 0 < mantissa) :
      Mirrors (.finite sign mantissa exponent positive) (.finite (-sign) mantissa exponent positive)

theorem neg_neg_sign (sign : Sign) : - -sign = sign := by
  cases sign <;> rfl

theorem apply_neg_sign (sign : Sign) (value : Int) : (-sign).apply value = -sign.apply value := by
  cases sign
  · exact (neg_neg value).symm
  · rfl

theorem Mirrors.symm {value other : UnpackedFloat} (mirrors : Mirrors value other) :
    Mirrors other value := by
  cases mirrors with
  | notANumber => exact .notANumber
  | zero sign other => exact .zero other sign
  | infinity sign => simpa only [neg_neg_sign] using Mirrors.infinity (-sign)
  | finite sign mantissa exponent positive =>
      simpa only [neg_neg_sign] using Mirrors.finite (-sign) mantissa exponent positive

theorem mirrors_neg (value : UnpackedFloat) : Mirrors value value.neg := by
  cases value with
  | notANumber => exact .notANumber
  | infinity sign => exact .infinity sign
  | zero sign => exact .zero sign (-sign)
  | finite sign mantissa exponent positive => exact .finite sign mantissa exponent positive

/-! ### Rounding -/

theorem mirrors_round (spec : Format) (sign : Sign) (mantissa : Nat) (exponent : Int) :
    Mirrors (UnpackedFloat.round spec sign mantissa exponent)
      (UnpackedFloat.round spec (-sign) mantissa exponent) := by
  -- The sign is only put before the rounded mantissa.
  simp only [UnpackedFloat.round, roundWithAccuracy]
  split
  · exact .zero sign (-sign)
  · exact .finite sign _ _ _

theorem mirrors_normalize (spec : Format) (mantissa exponent : Int) (sign : Sign) :
    Mirrors (UnpackedFloat.normalize spec mantissa exponent sign)
      (UnpackedFloat.normalize spec (-mantissa) exponent sign) := by
  unfold UnpackedFloat.normalize
  rcases lt_trichotomy mantissa 0 with negative | rfl | positive
  · rw [compare_lt_iff_lt.mpr negative, compare_gt_iff_gt.mpr (Int.neg_pos.mpr negative)]
    exact mirrors_round spec .negative _ exponent
  · exact .zero sign sign
  · rw [compare_gt_iff_gt.mpr positive, compare_lt_iff_lt.mpr (Int.neg_neg_of_pos positive),
      neg_neg]
    exact mirrors_round spec .positive _ exponent

theorem Mirrors.add (spec : Format) {left left' right right' : UnpackedFloat}
    (first : Mirrors left left') (second : Mirrors right right') :
    Mirrors (UnpackedFloat.add spec left right) (UnpackedFloat.add spec left' right') := by
  cases first with
  | notANumber => exact .notANumber
  | infinity sign =>
      cases second with
      | notANumber => exact .notANumber
      | infinity other =>
          cases sign <;> cases other
          · exact .infinity .negative
          · exact .notANumber
          · exact .notANumber
          · exact .infinity .positive
      | zero | finite => exact .infinity sign
  | zero sign sign' =>
      cases second with
      | notANumber => exact .notANumber
      | infinity other => exact .infinity other
      | zero other other' =>
          simp only [UnpackedFloat.add]
          split <;> split <;> exact .zero _ _
      | finite other mantissa exponent positive => exact .finite other mantissa exponent positive
  | finite sign mantissa exponent positive =>
      cases second with
      | notANumber => exact .notANumber
      | infinity other => exact .infinity other
      | zero => exact .finite sign mantissa exponent positive
      | finite other =>
          simp only [UnpackedFloat.add, apply_neg_sign, ← neg_add]
          exact mirrors_normalize spec _ _ .positive

/-! ### Packing -/

theorem mirrors_packComponents (spec : Format) (sign : Sign)
    (exponent : BitVec spec.exponentBits) (mantissa : BitVec spec.mantissaBitsWithoutImplicit) :
    Mirrors (UnpackedFloat.unpack spec (packComponents spec sign exponent mantissa))
      (UnpackedFloat.unpack spec (packComponents spec (-sign) exponent mantissa)) := by
  simp only [UnpackedFloat.unpack, unpackMantissa_packComponents, unpackExponent_packComponents,
    unpackSign_packComponents, Sign.ofBitVec_toBitVec]
  split
  · split
    · exact .infinity sign
    · exact .notANumber
  · split
    · split
      · exact .zero sign (-sign)
      · exact .finite sign _ _ _
    · exact .finite sign _ _ _

theorem Mirrors.pack (spec : Format) {value other : UnpackedFloat}
    (mirrors : Mirrors value other) :
    Mirrors (UnpackedFloat.unpack spec (UnpackedFloat.pack spec value))
      (UnpackedFloat.unpack spec (UnpackedFloat.pack spec other)) := by
  cases mirrors with
  | notANumber =>
      rw [UnpackedFloat.pack, unpack_packedNaN]
      exact .notANumber
  | infinity sign => exact mirrors_packComponents spec sign _ _
  | zero sign other =>
      rw [UnpackedFloat.pack, UnpackedFloat.pack, unpack_packedZero, unpack_packedZero]
      exact .zero sign other
  | finite sign mantissa exponent positive =>
      simp only [UnpackedFloat.pack]
      split
      · exact mirrors_packComponents spec sign _ _
      · split
        · exact mirrors_packComponents spec sign _ _
        · exact mirrors_packComponents spec sign _ _

/-! ### Shapes -/

/-- What an unpacked double stands for. -/
def Shape.ofUnpacked : UnpackedFloat → Shape
  | .notANumber => .notANumber
  | .infinity sign => .infinite (sign == .negative)
  | .zero sign => .finite (sign == .negative) 0 (-1074)
  | .finite sign mantissa exponent _ => .finite (sign == .negative) mantissa exponent

theorem toNat_unpackExponent (bits : UInt64) :
    (bits >>> 52 &&& 0x7FF).toNat = (@unpackExponent Format.binary64 bits.toBitVec).toNat := by
  have masked : (bits >>> 52 &&& 0x7FF).toNat = bits.toNat >>> 52 % 2 ^ 11 := by
    rw [← Nat.and_two_pow_sub_one_eq_mod]
    rfl
  rw [masked]
  simp [unpackExponent]

theorem toNat_unpackMantissa (bits : UInt64) :
    (bits &&& 0xFFFFFFFFFFFFF).toNat =
      (@unpackMantissa Format.binary64 bits.toBitVec).toNat := by
  have masked : (bits &&& 0xFFFFFFFFFFFFF).toNat = bits.toNat % 2 ^ 52 := by
    rw [← Nat.and_two_pow_sub_one_eq_mod]
    rfl
  rw [masked]
  simp [unpackMantissa]

theorem negative_unpackSign (bits : UInt64) :
    (bits >>> 63 == 1) =
      (Sign.ofBitVec (@unpackSign Format.binary64 bits.toBitVec) == .negative) := by
  have top : (bits >>> 63).toNat = (@unpackSign Format.binary64 bits.toBitVec).toNat := by
    have small : bits.toNat >>> 63 < 2 := by
      have := bits.toNat_lt
      omega
    simp [unpackSign, Nat.mod_eq_of_lt small]
  generalize @unpackSign Format.binary64 bits.toBitVec = sign at top ⊢
  have one_iff : bits >>> 63 = 1 ↔ sign = 1#1 := by
    rw [← UInt64.toNat_inj, top, ← BitVec.toNat_inj]
    rfl
  rw [Bool.eq_iff_iff, beq_iff_eq, one_iff]
  rcases BitVec.eq_zero_or_eq_one sign with rfl | rfl
  · decide
  · decide

theorem toNat_one_append (mantissa : BitVec 52) :
    (1#1 ++ mantissa).toNat = 2 ^ 52 + mantissa.toNat := by
  rw [BitVec.toNat_append, ← Nat.shiftLeft_add_eq_or_of_lt mantissa.isLt]
  rfl

theorem shape_eq (value : Float) : shape value = .ofUnpacked value.toModel.unpack := by
  have full_iff (exponent : BitVec 11) : exponent.toNat = 2047 ↔ exponent = -1#11 := by
    rw [← BitVec.toNat_inj]
    rfl
  have least_iff (exponent : BitVec 11) : exponent.toNat = 0 ↔ exponent = 0#11 := by
    rw [← BitVec.toNat_inj]
    rfl
  have zero_iff (mantissa : BitVec 52) : mantissa.toNat = 0 ↔ mantissa = 0#52 := by
    rw [← BitVec.toNat_inj]
    rfl
  -- Both sides test the same fields of the bits, one as numbers and the other as bit vectors.
  simp only [shape, Float.toBits, Float.Model.unpack, UnpackedFloat.unpack, toNat_unpackExponent,
    toNat_unpackMantissa, negative_unpackSign, full_iff, least_iff, zero_iff]
  split
  · split <;> rfl
  · split
    · rename_i least
      split
      · rename_i zero
        rw [zero]
        rfl
      · rw [least]
        rfl
    · simp only [Shape.ofUnpacked, toNat_one_append]
      rw [Nat.add_comm]
      rfl

end Double

/-- The extent on the other side of zero. -/
def Extent.opposite : Extent → Extent
  | .undefined => .undefined
  | .below => .above
  | .finite value => .finite (-value)
  | .above => .below

/-- Whether two doubles are opposite up to the sign of a zero. -/
def Double.Opposite (value other : Float) : Prop :=
  Mirrors value.toModel.unpack other.toModel.unpack

namespace Double

theorem Opposite.symm {value other : Float} (opposite : Opposite value other) :
    Opposite other value := Mirrors.symm opposite

theorem Opposite.add {left left' right right' : Float} (first : Opposite left left')
    (second : Opposite right right') : Opposite (left + right) (left' + right') :=
  Mirrors.pack _ (Mirrors.add _ first second)

open Float.Model Float.Model.UnpackedFloat in
theorem opposite_neg (value : Float) : Opposite value (-value) := by
  have mirrors := (mirrors_neg value.toModel.unpack).pack Format.binary64
  rw [Float.Model.unpack, pack_unpack_of_valid value.toModel.valid] at mirrors
  exact mirrors

theorem opposite_ofInt (value : Int) : Opposite (Float.ofInt value) (Float.ofInt (-value)) := by
  rcases value with (_ | value) | value
  · exact .zero .positive .positive
  · exact opposite_neg (Float.ofNat (value + 1))
  · exact (opposite_neg (Float.ofNat (value + 1))).symm

theorem Opposite.extent_eq {value other : Float} (opposite : Opposite value other) :
    Extent.ofFloat other = (Extent.ofFloat value).opposite := by
  rw [Extent.ofFloat, Extent.ofFloat, shape_eq, shape_eq]
  unfold Opposite at opposite
  generalize value.toModel.unpack = unpacked at opposite
  generalize other.toModel.unpack = otherUnpacked at opposite
  cases opposite with
  | notANumber => rfl
  | infinity sign => cases sign <;> rfl
  | zero sign other =>
      simp only [Shape.ofUnpacked, Nat.zero_mul, Nat.cast_zero, Rat.zero_mkRat, neg_zero, ite_self,
        Extent.opposite]
  | finite sign mantissa exponent positive =>
      simp only [Shape.ofUnpacked, Extent.opposite]
      cases sign
      · exact congrArg Extent.finite (neg_neg _).symm
      · rfl

end Double

namespace Number

/-- Whether two scores are opposite up to the sign of a zero. -/
inductive Opposite : Number → Number → Prop where
  | int (value : Int) : Opposite (.int value) (.int (-value))
  | real {value other : Float} (opposite : Double.Opposite value other) :
      Opposite (.real value) (.real other)

theorem opposite_neg (number : Number) : number.Opposite (-number) := by
  cases number with
  | int value => exact .int value
  | real value => exact .real (Double.opposite_neg value)

theorem Opposite.extent_eq {number other : Number} (opposite : number.Opposite other) :
    other.extent = number.extent.opposite := by
  cases opposite with
  | int value => simp [extent, Extent.opposite]
  | real opposite => exact opposite.extent_eq

theorem Opposite.toFloat {number other : Number} (opposite : number.Opposite other) :
    Double.Opposite number.toFloat other.toFloat := by
  cases opposite with
  | int value => exact Double.opposite_ofInt value
  | real opposite => exact opposite

theorem Opposite.exists_real {total : Float} {other : Number}
    (opposite : (Number.real total).Opposite other) : ∃ otherTotal, other = .real otherTotal := by
  cases opposite with
  | real _ => exact ⟨_, rfl⟩

/-- Sums as doubles of opposite scores are opposite. -/
theorem Opposite.add {left left' right right' : Number} (first : left.Opposite left')
    (second : right.Opposite right') :
    (Number.real (left.toFloat + right.toFloat)).Opposite
      (Number.real (left'.toFloat + right'.toFloat)) :=
  .real (first.toFloat.add second.toFloat)

theorem less_neg_neg (left right : Number) : (-left).less (-right) = right.less left := by
  rw [less_eq_extent, less_eq_extent, (opposite_neg left).extent_eq, (opposite_neg right).extent_eq]
  cases left.extent <;> cases right.extent <;> simp [Extent.less, Extent.opposite]

theorem same_neg_neg (left right : Number) : (-left).same (-right) = right.same left := by
  rw [same_eq_extent, same_eq_extent, (opposite_neg left).extent_eq, (opposite_neg right).extent_eq]
  rw [Bool.eq_iff_iff]
  cases left.extent <;> cases right.extent <;> simp [Extent.opposite]
  exact eq_comm

@[simp]
theorem neg_below : -below = above := by rfl

@[simp]
theorem neg_above : -above = below := by rfl

end Number

end GameSearch
