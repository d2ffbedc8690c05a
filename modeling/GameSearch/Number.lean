import GameSearch.Decimal.Digits
import GameSearch.Fault

/-!
# Scores

A score is an integer of any size or a double. Arithmetic on two integers stays exact; as soon as a
double is involved the result is a double, and an integer that is too large for one is a fault.
Comparison is always by exact value: an integer is never rounded before it is compared, and an
undefined double compares with nothing.
-/

namespace GameSearch

/-- An integer or a double, kept apart. -/
inductive Number where
  | int (value : Int)
  | real (value : Float)

/-- The place of a number on the extended line, or `undefined` for what is not a number. -/
inductive Extent where
  | undefined
  | below
  | finite (value : Rat)
  | above
  deriving DecidableEq

namespace Extent

/-- Strictly smaller; nothing is smaller or greater than an undefined extent. -/
def less : Extent → Extent → Bool
  | .undefined, _ => false
  | _, .undefined => false
  | .below, .below => false
  | .below, _ => true
  | .finite _, .below => false
  | .finite left, .finite right => left < right
  | .finite _, .above => true
  | .above, _ => false

/-- The extent of a double. -/
def ofFloat (value : Float) : Extent :=
  match Double.shape value with
  | .notANumber => .undefined
  | .infinite negative => if negative then .below else .above
  | .finite negative mantissa exponent =>
    let magnitude := mkRat (mantissa * wholePower 2 exponent : Nat) (wholePower 2 (-exponent))
    .finite (if negative then -magnitude else magnitude)

end Extent

namespace Number

/-- Negative infinity. -/
def below : Number := .real (Float.ofBits 0xFFF0000000000000)

/-- Positive infinity. -/
def above : Number := .real (Float.ofBits 0x7FF0000000000000)

/-- The exact value. -/
def extent : Number → Extent
  | .int value => .finite value
  | .real value => Extent.ofFloat value

/-- The nearest double, infinite for an integer past the largest one. -/
def toFloat : Number → Float
  | .int value => Float.ofInt value
  | .real value => value

/-- The least integer that rounds past the largest double. -/
def overflow : Nat := 1 <<< 1024 - 1 <<< 970

/-- Whether a number is a double or rounds to a finite one. -/
def fits : Number → Bool
  | .int value => decide (value.natAbs < overflow)
  | .real _ => true

/-- The number as a double, if it is not an integer past the largest one. -/
def asDouble (number : Number) : Except Fault Float :=
  if number.fits then .ok number.toFloat else .error .integerTooLarge

/-- Strictly smaller by exact value. -/
def less : Number → Number → Bool
  | .int left, .int right => left < right
  | left, right => left.extent.less right.extent

/-- Equal by exact value; an undefined number equals nothing. -/
def same : Number → Number → Bool
  | .int left, .int right => left == right
  | left, right => left.extent == right.extent && left.extent != .undefined

/-- Smaller or equal by exact value. -/
def atMost (left right : Number) : Bool :=
  left.less right || left.same right

/-- The greater number, the first one unless the second is strictly greater. -/
def max (left right : Number) : Number :=
  if left.less right then right else left

/-- The smaller number, the first one unless the second is strictly smaller. -/
def min (left right : Number) : Number :=
  if right.less left then right else left

/-- The sum. -/
def plus : Number → Number → Except Fault Number
  | .int left, .int right => .ok (.int (left + right))
  | left, right => do return .real ((← left.asDouble) + (← right.asDouble))

protected def neg : Number → Number
  | .int value => .int (-value)
  | .real value => .real (-value)

/-- The product. -/
def times : Number → Number → Except Fault Number
  | .int left, .int right => .ok (.int (left * right))
  | left, right => do return .real ((← left.asDouble) * (← right.asDouble))

/-- The quotient by a number other than zero. That of two integers is rounded only once. -/
def dividedBy : Number → Number → Except Fault Number
  | .int left, .int right =>
    let quotient := Double.ofQuotient left right
    if quotient.isInf then .error .quotientTooLarge else .ok (.real quotient)
  | left, right => do return .real ((← left.asDouble) / (← right.asDouble))

instance : Neg Number := ⟨Number.neg⟩
instance (value : Nat) : OfNat Number value := ⟨.int value⟩
instance : Inhabited Number := ⟨.int 0⟩

/-- An integer in decimal, a double with the fewest digits that read back. -/
def text : Number → String
  | .int value => toString value
  | .real value => Double.text value

@[simp] theorem int_plus_int (left right : Int) :
    (Number.int left).plus (.int right) = .ok (.int (left + right)) := rfl

@[simp] theorem int_times_int (left right : Int) :
    (Number.int left).times (.int right) = .ok (.int (left * right)) := rfl

@[simp] theorem neg_int (value : Int) : (-Number.int value : Number) = .int (-value) := rfl

theorem fits_of_natAbs_le {value : Int} {bound : Nat} (small : bound < overflow)
    (within : value.natAbs ≤ bound) : (int value).fits = true :=
  decide_eq_true (Nat.lt_of_le_of_lt within small)

theorem asDouble_of_fits {number : Number} (fits : number.fits = true) :
    number.asDouble = .ok number.toFloat := if_pos fits

theorem asDouble_of_not_fits {number : Number} (huge : number.fits = false) :
    number.asDouble = .error .integerTooLarge := by
  rw [asDouble, huge]
  rfl

theorem asDouble_cases (number : Number) :
    (∃ double, number.asDouble = .ok double) ∨ number.asDouble = .error .integerTooLarge := by
  cases fits : number.fits with
  | true => exact .inl ⟨_, asDouble_of_fits fits⟩
  | false => exact .inr (asDouble_of_not_fits fits)

/-- Arithmetic on doubles has no other fault than an integer that is too large for one. -/
theorem asDoubles_cases (left right : Number) (operation : Float → Float → Float) :
    (∃ result, (do return Number.real (operation (← left.asDouble) (← right.asDouble))) =
        Except.ok result) ∨
      (do return Number.real (operation (← left.asDouble) (← right.asDouble))) =
        Except.error Fault.integerTooLarge := by
  rcases left.asDouble_cases with ⟨first, left_eq⟩ | left_eq
  · rcases right.asDouble_cases with ⟨second, right_eq⟩ | right_eq
    · rw [left_eq, right_eq]
      exact .inl ⟨_, rfl⟩
    · rw [left_eq, right_eq]
      exact .inr rfl
  · rw [left_eq]
    exact .inr rfl

theorem plus_cases (left right : Number) :
    (∃ sum, left.plus right = .ok sum) ∨ left.plus right = .error .integerTooLarge := by
  unfold plus
  split
  · exact .inl ⟨_, rfl⟩
  · exact asDoubles_cases _ _ (· + ·)

theorem times_cases (left right : Number) :
    (∃ product, left.times right = .ok product) ∨ left.times right = .error .integerTooLarge := by
  unfold times
  split
  · exact .inl ⟨_, rfl⟩
  · exact asDoubles_cases _ _ (· * ·)

theorem fits_neg (number : Number) : (-number).fits = number.fits := by
  cases number with
  | int value => simp only [neg_int, fits, Int.natAbs_neg]
  | real value => rfl

@[simp] theorem less_int_int (left right : Int) :
    (Number.int left).less (.int right) = decide (left < right) := rfl

end Number

end GameSearch
