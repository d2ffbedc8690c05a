import GameSearch.Proofs.Number.Opposite

/-!
# Doubles on a grid

A double has a mantissa of 53 bits, so that every multiple of a power of two is a double if the
factor is below two to the power of 53 and the power is not extreme. A sum of such multiples that
stays below this bound loses no bit when it is rounded: doubles on a grid add up as their factors
do.
-/

namespace GameSearch

namespace Double

open Float.Model Float.Model.UnpackedFloat

/-- The integers below this bound fit into the mantissa of a double. -/
def wholeBound : Nat := 2 ^ 53

/-- Whether an unpacked double stands for a multiple of two to the power of `unit`, with powers of
two on the side where they are whole. -/
def Stands (unit : Int) : UnpackedFloat → Int → Prop
  | .zero _, value => value = 0
  | .finite sign mantissa exponent _, value =>
    sign.apply mantissa * 2 ^ (exponent - unit).toNat = value * 2 ^ (unit - exponent).toNat
  | _, _ => False

/-- Whether a unit is so far from the extremes that its multiples with a full mantissa are
normal. -/
def Moderate (unit : Int) : Prop := -1022 ≤ unit ∧ unit ≤ 971

/-! ### Rounding without loss -/

theorem log2_mul_two_pow {value : Nat} (positive : 0 < value) (count : Nat) :
    (value * 2 ^ count).log2 = value.log2 + count := by
  rw [Nat.log2_eq_iff (by positivity)]
  have bounds := (Nat.log2_eq_iff positive.ne').mp rfl
  rw [Nat.pow_add, Nat.add_right_comm, Nat.pow_add 2 (value.log2 + 1)]
  constructor
  · exact Nat.mul_le_mul_right _ bounds.1
  · exact Nat.mul_lt_mul_of_pos_right bounds.2 (by positivity)

theorem log2_le_of_lt_wholeBound {value : Nat} (positive : 0 < value)
    (small : value < wholeBound) : value.log2 ≤ 52 := by
  have := (Nat.log2_lt positive.ne').mpr small
  omega

theorem shiftRight_exact (mantissa count : Nat) :
    (⟨mantissa * 2 ^ count, false, false⟩ : ExtendedMantissa) >>> count =
      ⟨mantissa, false, false⟩ := by
  change Nat.repeat ExtendedMantissa.shiftRightOne count _ = _
  induction count generalizing mantissa with
  | zero => simp [Nat.repeat]
  | succ count ih =>
      rw [Nat.repeat, Nat.pow_succ', ← Nat.mul_assoc, ih (mantissa * 2)]
      simp [ExtendedMantissa.shiftRightOne]

/-- The mantissa of a multiple as a double. -/
def fullMantissa (value : Nat) : Nat := value * 2 ^ (52 - value.log2)

/-- The exponent of a multiple as a double. -/
def exponentOn (unit : Int) (value : Nat) : Int := value.log2 - 52 + unit

theorem fullMantissa_pos {value : Nat} (positive : 0 < value) : 0 < fullMantissa value :=
  Nat.mul_pos positive (by positivity)

/-- A multiple of a unit as a double. -/
def ofMultiple (unit : Int) (sign : Sign) (value : Nat) (positive : 0 < value) : UnpackedFloat :=
  .finite sign (fullMantissa value) (exponentOn unit value) (fullMantissa_pos positive)

section

variable {unit : Int} {sign : Sign} {value : Nat}

theorem log2_fullMantissa (positive : 0 < value) (small : value < wholeBound) :
    (fullMantissa value).log2 = 52 := by
  have := log2_le_of_lt_wholeBound positive small
  rw [fullMantissa, log2_mul_two_pow positive]
  omega

theorem stands_ofMultiple (positive : 0 < value) (small : value < wholeBound) :
    Stands unit (ofMultiple unit sign value positive) (sign.apply value) := by
  have := log2_le_of_lt_wholeBound positive small
  have up : (exponentOn unit value - unit).toNat = 0 := by
    unfold exponentOn
    omega
  have down : (unit - exponentOn unit value).toNat = 52 - value.log2 := by
    unfold exponentOn
    omega
  simp only [ofMultiple, Stands, up, down, fullMantissa]
  cases sign <;> simp [Sign.apply]

theorem targetExponent_eq (moderate : Moderate unit) {mantissa : Nat} {exponent : Int}
    (log2_eq : mantissa.log2 + exponent = value.log2 + unit) :
    Format.binary64.targetExponent (totalExponent mantissa exponent) = exponentOn unit value := by
  have bits : (Format.binary64.mantissaBits : Int) = 53 := by decide
  have least : Format.binary64.minExponent = -1074 := by decide
  have low := moderate.1
  rw [Format.targetExponent, totalExponent, bits, least, exponentOn]
  omega

/-- Bits past the mantissa that are all zero are dropped. -/
theorem roundWithAccuracy_multiple (moderate : Moderate unit) (sign : Sign) (positive : 0 < value)
    (small : value < wholeBound) (extra : Nat) :
    roundWithAccuracy Format.binary64 sign (fullMantissa value * 2 ^ extra)
      (exponentOn unit value - extra) .exact = ofMultiple unit sign value positive := by
  have log2_eq := log2_fullMantissa positive small
  have first : Format.binary64.targetExponent
      (totalExponent (fullMantissa value * 2 ^ extra) (exponentOn unit value - extra)) =
        exponentOn unit value := by
    apply targetExponent_eq moderate
    rw [log2_mul_two_pow (fullMantissa_pos positive), log2_eq, exponentOn]
    omega
  have second : Format.binary64.targetExponent
      (totalExponent (fullMantissa value) (exponentOn unit value)) = exponentOn unit value := by
    apply targetExponent_eq moderate
    rw [log2_eq, exponentOn]
    omega
  have dropped : (exponentOn unit value - (exponentOn unit value - extra)).toNat = extra := by
    omega
  have none : (⟨fullMantissa value, false, false⟩ : ExtendedMantissa) >>> 0 =
      ⟨fullMantissa value, false, false⟩ := rfl
  have nonzero : fullMantissa value ≠ 0 := (fullMantissa_pos positive).ne'
  simp only [roundWithAccuracy, shiftToTargetExponent, shiftToExponent, first, dropped,
    ExtendedMantissa.ofMantissaAndAccuracy, shiftRight_exact, ExtendedMantissa.roundedMantissa,
    ExtendedMantissa.accuracy, Accuracy.roundToNearestEven, sub_add_cancel, second, sub_self,
    Int.toNat_zero, none, nonzero, dif_neg, not_false_eq_true, Nat.cast_zero, add_zero, ofMultiple]

theorem round_multiple (moderate : Moderate unit) (sign : Sign) (positive : 0 < value)
    (small : value < wholeBound) {mantissa : Nat} {exponent : Int}
    (value_eq : mantissa * 2 ^ (exponent - unit).toNat = value * 2 ^ (unit - exponent).toNat) :
    UnpackedFloat.round Format.binary64 sign mantissa exponent =
      ofMultiple unit sign value positive := by
  have low := log2_le_of_lt_wholeBound positive small
  have mantissa_pos : 0 < mantissa := by
    have scaled : 0 < mantissa * 2 ^ (exponent - unit).toNat := by
      rw [value_eq]
      positivity
    exact Nat.pos_of_mul_pos_right scaled
  have log2_eq : mantissa.log2 + exponent = value.log2 + unit := by
    have both := congrArg Nat.log2 value_eq
    rw [log2_mul_two_pow mantissa_pos, log2_mul_two_pow positive] at both
    omega
  have target := targetExponent_eq moderate log2_eq
  let extra := (exponentOn unit value - exponent).toNat
  let gained := (exponent - exponentOn unit value).toNat
  have powers_eq : (unit - exponent).toNat + gained =
      52 - value.log2 + extra + (exponent - unit).toNat := by
    simp only [gained, extra, exponentOn]
    omega
  have mantissa_eq : mantissa * 2 ^ gained = fullMantissa value * 2 ^ extra := by
    have scale : 0 < 2 ^ (exponent - unit).toNat := by positivity
    apply Nat.eq_of_mul_eq_mul_right scale
    calc mantissa * 2 ^ gained * 2 ^ (exponent - unit).toNat
        = value * 2 ^ (unit - exponent).toNat * 2 ^ gained := by rw [mul_right_comm, value_eq]
      _ = value * 2 ^ (52 - value.log2 + extra + (exponent - unit).toNat) := by
          rw [mul_assoc, ← pow_add, powers_eq]
      _ = fullMantissa value * 2 ^ extra * 2 ^ (exponent - unit).toNat := by
          rw [pow_add, pow_add, fullMantissa, mul_assoc, mul_assoc, mul_assoc]
  have exponent_eq : exponent - gained = exponentOn unit value - extra := by
    omega
  simp only [UnpackedFloat.round, target, decreaseExponent, Nat.shiftLeft_eq]
  rw [mantissa_eq, exponent_eq]
  exact roundWithAccuracy_multiple moderate sign positive small extra

/-! ### Packing without loss -/

/-- Bits of a normal double, whose exponent is neither the greatest nor the least. -/
theorem unpack_packComponents_normal (sign : Sign) {mantissa biased : Nat}
    (positive : 0 < mantissa) (log2_eq : mantissa.log2 = 52) (normal : 0 < biased)
    (finite : biased < 2047) :
    unpack Format.binary64 (packComponents Format.binary64 sign (BitVec.ofNat 11 biased)
      (BitVec.ofNat 52 mantissa)) = .finite sign mantissa (biased - 1075) positive := by
  have bounds := (Nat.log2_eq_iff positive.ne').mp log2_eq
  have exponent_eq : (BitVec.ofNat 11 biased).toNat = biased := by
    rw [BitVec.toNat_ofNat]
    exact Nat.mod_eq_of_lt (by omega)
  have mantissa_eq : (1#1 ++ BitVec.ofNat 52 mantissa).toNat = mantissa := by
    rw [toNat_one_append, BitVec.toNat_ofNat]
    omega
  have not_greatest : BitVec.ofNat 11 biased ≠ -1#11 := by
    intro same
    rw [same] at exponent_eq
    change 2047 = _ at exponent_eq
    omega
  have not_least : BitVec.ofNat 11 biased ≠ 0#11 := by
    intro same
    rw [same] at exponent_eq
    change 0 = _ at exponent_eq
    omega
  have bias : (Format.binary64.exponentBias : Int) + (52 : Nat) = 1075 := by decide
  simp only [UnpackedFloat.unpack, unpackMantissa_packComponents, unpackExponent_packComponents,
    unpackSign_packComponents, Sign.ofBitVec_toBitVec]
  rw [if_neg not_greatest, if_neg not_least]
  simp only [mantissa_eq, exponent_eq, bias]

theorem pack_ofMultiple (sign : Sign) (positive : 0 < value) (small : value < wholeBound)
    {biased : Nat} (biased_eq : (biased : Int) = value.log2 + unit + 1023)
    (finite : biased < 2047) :
    UnpackedFloat.pack Format.binary64 (ofMultiple unit sign value positive) =
      packComponents Format.binary64 sign (BitVec.ofNat 11 biased)
        (BitVec.ofNat 52 (fullMantissa value)) := by
  have bias : (Format.binary64.exponentBias : Int) = 1023 := by decide
  have shifted : (exponentOn unit value + (Format.binary64.exponentBias : Int) + 52).toNat =
      biased := by
    rw [exponentOn, bias]
    omega
  simp only [UnpackedFloat.pack, ofMultiple, Nat.cast_ofNat, shifted,
    log2_fullMantissa positive small]
  rw [if_neg (by omega), if_pos (by decide)]

/-- A multiple of a moderate unit fits into the bits of a double. -/
theorem unpack_pack_ofMultiple (moderate : Moderate unit) (sign : Sign) (positive : 0 < value)
    (small : value < wholeBound) :
    unpack Format.binary64
        (UnpackedFloat.pack Format.binary64 (ofMultiple unit sign value positive)) =
      ofMultiple unit sign value positive := by
  rcases moderate with ⟨least, greatest⟩
  have low := log2_le_of_lt_wholeBound positive small
  obtain ⟨biased, biased_eq⟩ : ∃ biased : Nat, (biased : Int) = value.log2 + unit + 1023 :=
    ⟨(value.log2 + unit + 1023).toNat, by omega⟩
  have exponent_eq : (biased : Int) - 1075 = exponentOn unit value := by
    rw [exponentOn]
    omega
  rw [pack_ofMultiple sign positive small biased_eq (by omega),
    unpack_packComponents_normal sign (fullMantissa_pos positive)
      (log2_fullMantissa positive small) (by omega) (by omega)]
  simp only [exponent_eq, ofMultiple]

end

/-! ### Sums -/

section

variable {unit : Int}

theorem stands_round (moderate : Moderate unit) (sign : Sign) {value mantissa : Nat}
    {exponent : Int} (positive : 0 < value) (small : value < wholeBound)
    (value_eq : mantissa * 2 ^ (exponent - unit).toNat = value * 2 ^ (unit - exponent).toNat) :
    Stands unit (unpack Format.binary64 (UnpackedFloat.pack Format.binary64
      (UnpackedFloat.round Format.binary64 sign mantissa exponent))) (sign.apply value) := by
  rw [round_multiple moderate sign positive small value_eq,
    unpack_pack_ofMultiple moderate sign positive small]
  exact stands_ofMultiple positive small

theorem stands_normalize (moderate : Moderate unit) {mantissa exponent value : Int}
    (small : value.natAbs < wholeBound)
    (value_eq : mantissa * 2 ^ (exponent - unit).toNat = value * 2 ^ (unit - exponent).toNat)
    (zeroSign : Sign) :
    Stands unit (unpack Format.binary64 (UnpackedFloat.pack Format.binary64
      (UnpackedFloat.normalize Format.binary64 mantissa exponent zeroSign))) value := by
  have scale : (0 : Int) < 2 ^ (exponent - unit).toNat := by positivity
  have otherScale : (0 : Int) < 2 ^ (unit - exponent).toNat := by positivity
  have magnitude_eq : mantissa.natAbs * 2 ^ (exponent - unit).toNat =
      value.natAbs * 2 ^ (unit - exponent).toNat := by
    simpa [Int.natAbs_mul, Int.natAbs_pow] using congrArg Int.natAbs value_eq
  unfold UnpackedFloat.normalize
  rcases lt_trichotomy mantissa 0 with negative | rfl | positive
  · have below : value < 0 := by
      apply neg_of_mul_neg_left _ otherScale.le
      rw [← value_eq]
      exact mul_neg_of_neg_of_pos negative scale
    have magnitude : (-mantissa).toNat = mantissa.natAbs := by omega
    have stands := stands_round moderate .negative (by omega) small magnitude_eq
    rw [Sign.apply, Int.ofNat_natAbs_of_nonpos below.le, neg_neg] at stands
    rw [compare_lt_iff_lt.mpr negative, magnitude]
    exact stands
  · have none : value = 0 := by
      rw [zero_mul, eq_comm, mul_eq_zero] at value_eq
      exact value_eq.resolve_right otherScale.ne'
    rw [compare_eq_iff_eq.mpr rfl, UnpackedFloat.pack, unpack_packedZero]
    exact none
  · have above : 0 < value := by
      apply pos_of_mul_pos_left _ otherScale.le
      rw [← value_eq]
      exact mul_pos positive scale
    have magnitude : mantissa.toNat = mantissa.natAbs := by omega
    have stands := stands_round moderate .positive (by omega) small magnitude_eq
    rw [Sign.apply, Int.natAbs_of_nonneg above.le] at stands
    rw [compare_gt_iff_gt.mpr positive, magnitude]
    exact stands

theorem unpack_add (left right : Float) : (left + right).toModel.unpack =
    unpack Format.binary64 (UnpackedFloat.pack Format.binary64
      (UnpackedFloat.add Format.binary64 left.toModel.unpack right.toModel.unpack)) := rfl

theorem unpack_mul (left right : Float) : (left * right).toModel.unpack =
    unpack Format.binary64 (UnpackedFloat.pack Format.binary64
      (UnpackedFloat.mul Format.binary64 left.toModel.unpack right.toModel.unpack)) := rfl

theorem unpack_pack_unpack (value : Float) :
    unpack Format.binary64 (UnpackedFloat.pack Format.binary64 value.toModel.unpack) =
      value.toModel.unpack := by
  rw [Float.Model.unpack, pack_unpack_of_valid value.toModel.valid]

theorem apply_shiftLeft (sign : Sign) (mantissa count : Nat) :
    sign.apply ((mantissa <<< count : Nat) : Int) = sign.apply mantissa * 2 ^ count := by
  cases sign <;> simp [Sign.apply, Nat.shiftLeft_eq]

/-- A lower exponent, with the mantissa to match, stands for the same multiple. -/
theorem stands_of_le {sign : Sign} {mantissa : Nat} {exponent lower value : Int}
    (le : lower ≤ exponent)
    (value_eq : sign.apply mantissa * 2 ^ (exponent - unit).toNat =
      value * 2 ^ (unit - exponent).toNat) :
    sign.apply ((mantissa <<< (exponent - lower).toNat : Nat) : Int) * 2 ^ (lower - unit).toNat =
      value * 2 ^ (unit - lower).toNat := by
  have scale : (2 : Int) ^ (unit - exponent).toNat ≠ 0 := by positivity
  have powers_eq : (exponent - lower).toNat + (lower - unit).toNat + (unit - exponent).toNat =
      (exponent - unit).toNat + (unit - lower).toNat := by
    omega
  apply mul_right_cancel₀ scale
  rw [apply_shiftLeft]
  calc sign.apply mantissa * 2 ^ (exponent - lower).toNat * 2 ^ (lower - unit).toNat *
        2 ^ (unit - exponent).toNat
      = sign.apply mantissa * 2 ^ (exponent - unit).toNat * 2 ^ (unit - lower).toNat := by
        rw [mul_assoc, mul_assoc, ← pow_add, ← pow_add, ← add_assoc, powers_eq, pow_add, mul_assoc]
    _ = value * 2 ^ (unit - exponent).toNat * 2 ^ (unit - lower).toNat := by rw [value_eq]
    _ = value * 2 ^ (unit - lower).toNat * 2 ^ (unit - exponent).toNat := mul_right_comm _ _ _

/-- Doubles on a grid add up like their factors, if no bit of the sum is lost. -/
theorem stands_add (moderate : Moderate unit) {left right : Float} {value other : Int}
    (first : Stands unit left.toModel.unpack value)
    (second : Stands unit right.toModel.unpack other)
    (small : (value + other).natAbs < wholeBound) :
    Stands unit (left + right).toModel.unpack (value + other) := by
  rw [unpack_add]
  cases left_eq : left.toModel.unpack with
  | notANumber => simp [left_eq, Stands] at first
  | infinity => simp [left_eq, Stands] at first
  | zero sign =>
      have none : value = 0 := by simpa [left_eq, Stands] using first
      rw [none, zero_add]
      cases right_eq : right.toModel.unpack with
      | notANumber => simp [right_eq, Stands] at second
      | infinity => simp [right_eq, Stands] at second
      | zero otherSign =>
          have zero : other = 0 := by simpa [right_eq, Stands] using second
          simp only [UnpackedFloat.add]
          split <;> simpa only [UnpackedFloat.pack, unpack_packedZero, Stands] using zero
      | finite =>
          simp only [UnpackedFloat.add]
          rwa [← right_eq, unpack_pack_unpack]
  | finite sign mantissa exponent positive =>
      cases right_eq : right.toModel.unpack with
      | notANumber => simp [right_eq, Stands] at second
      | infinity => simp [right_eq, Stands] at second
      | zero =>
          have zero : other = 0 := by simpa [right_eq, Stands] using second
          simp only [UnpackedFloat.add]
          rw [← left_eq, unpack_pack_unpack, zero, add_zero]
          exact first
      | finite otherSign otherMantissa otherExponent otherPositive =>
          simp only [left_eq, right_eq, Stands] at first second
          simp only [UnpackedFloat.add, decreaseExponent]
          apply stands_normalize moderate small
          rw [add_mul, add_mul, stands_of_le (min_le_left _ _) first,
            stands_of_le (min_le_right _ _) second]

/-- A running total on a grid stays exact as long as the last one does. -/
theorem stands_foldl (moderate : Moderate unit) {α : Type} {items : List α} {number : α → Float}
    {value : α → Int} {total : Float} {before : Int}
    (stands : ∀ item ∈ items, Stands unit (number item).toModel.unpack (value item))
    (nonneg : ∀ item ∈ items, 0 ≤ value item) (first : Stands unit total.toModel.unpack before)
    (before_nonneg : 0 ≤ before) (small : before + (items.map value).sum < wholeBound) :
    Stands unit (items.foldl (fun total item => total + number item) total).toModel.unpack
      (before + (items.map value).sum) := by
  induction items generalizing total before with
  | nil => simpa using first
  | cons item items ih =>
      rw [List.forall_mem_cons] at stands nonneg
      rw [List.map_cons, List.sum_cons, ← add_assoc] at small ⊢
      have rest_nonneg : 0 ≤ (items.map value).sum := by
        apply List.sum_nonneg
        simpa using nonneg.2
      have next_nonneg : 0 ≤ before + value item := add_nonneg before_nonneg nonneg.1
      have next := stands_add moderate first stands.1 (by omega)
      exact ih stands.2 nonneg.2 next next_nonneg small

theorem Mirrors.stands {unpacked other : UnpackedFloat} {value : Int}
    (mirrors : Mirrors unpacked other) (stands : Stands unit unpacked value) :
    Stands unit other (-value) := by
  cases mirrors with
  | notANumber => exact stands
  | infinity => exact stands
  | zero => exact neg_eq_zero.mpr stands
  | finite sign mantissa exponent positive =>
      simp only [Stands] at stands ⊢
      rw [apply_neg_sign, neg_mul, neg_mul, stands]

/-! ### Extents -/

theorem two_zpow_eq (exponent : Int) :
    (2 : Rat) ^ exponent = 2 ^ exponent.toNat / 2 ^ (-exponent).toNat := by
  obtain ⟨count, rfl | rfl⟩ := exponent.eq_nat_or_neg <;> simp

theorem mkRat_eq_mul (mantissa : Nat) (exponent : Int) :
    mkRat (mantissa * wholePower 2 exponent : Nat) (wholePower 2 (-exponent)) =
      (mantissa * 2 ^ exponent : Rat) := by
  rw [Rat.mkRat_eq_div, two_zpow_eq, ← mul_div_assoc]
  simp [wholePower]

theorem mul_zpow_eq_iff (factor value exponent : Int) :
    (factor * 2 ^ exponent : Rat) = value * 2 ^ unit ↔
      factor * 2 ^ (exponent - unit).toNat = value * 2 ^ (unit - exponent).toNat := by
  have scale : (2 : Rat) ^ unit ≠ 0 := by positivity
  have otherScale : (2 : Rat) ^ (unit - exponent).toNat ≠ 0 := by positivity
  have split : (2 : Rat) ^ exponent = 2 ^ (exponent - unit) * 2 ^ unit := by
    rw [← zpow_add₀ two_ne_zero, sub_add_cancel]
  rw [split, ← mul_assoc, mul_left_inj' scale, two_zpow_eq, neg_sub, ← mul_div_assoc,
    div_eq_iff otherScale]
  norm_cast

/-- What a double on a grid is worth. -/
theorem extent_eq_finite_iff {double : Float} {value : Int} :
    Extent.ofFloat double = .finite (value * 2 ^ unit) ↔
      Stands unit double.toModel.unpack value := by
  rw [Extent.ofFloat, shape_eq]
  cases double.toModel.unpack with
  | notANumber => simp [Shape.ofUnpacked, Stands]
  | infinity sign => cases sign <;> simp [Shape.ofUnpacked, Stands]
  | zero sign =>
      have scale : (2 : Rat) ^ unit ≠ 0 := by positivity
      simp only [Shape.ofUnpacked, Stands, Nat.zero_mul, Nat.cast_zero, Rat.zero_mkRat, neg_zero,
        ite_self, Extent.finite.injEq, zero_eq_mul, Int.cast_eq_zero, scale, or_false]
  | finite sign mantissa exponent positive =>
      simp only [Shape.ofUnpacked, Stands, mkRat_eq_mul, Extent.finite.injEq]
      rw [← mul_zpow_eq_iff]
      cases sign with
      | negative => simp [Sign.apply]
      | positive => simp [Sign.apply]

end

end Double

end GameSearch
