import Mathlib.Data.Nat.Digits.Defs
import GameSearch.Decimal.Typed

/-!
# Writing integers

An integer is written in full unless it has too many digits, and then it is not written at all. Its
sign does not count.
-/

namespace GameSearch.Numeral

variable {number : Int}

/-- An integer of no more digits than can be written. -/
def Writable (number : Int) : Prop := number.natAbs < 10 ^ digitLimit

theorem length_toString_le_iff {number : Nat} :
    (toString number).length ≤ digitLimit ↔ number < 10 ^ digitLimit := by
  rw [Nat.toString_eq_ofList_toDigits, String.length_ofList]
  exact Nat.length_toDigits_le_iff (by decide) (by decide)

theorem written_eq (number : Int) :
    written number =
      if (toString number.natAbs).length ≤ digitLimit then .ok (toString number)
      else .error .unwrittenInteger := by
  rw [written, ← ite_not]
  simp only [Nat.not_lt]

theorem written_of_writable (writable : Writable number) : written number = .ok (toString number) := by
  rw [written_eq, if_pos (length_toString_le_iff.mpr writable)]

theorem written_of_not_writable (long : ¬Writable number) :
    written number = .error .unwrittenInteger := by
  rw [written_eq, if_neg (mt length_toString_le_iff.mp long)]

end GameSearch.Numeral

namespace GameSearch.Number

variable {number : Number}

/-- A double, or an integer of no more digits than can be written. -/
def Writable : Number → Prop
  | .int value => Numeral.Writable value
  | .real _ => True

theorem written_of_writable (writable : number.Writable) : number.written = .ok number.text := by
  cases number with
  | int value => exact Numeral.written_of_writable writable
  | real value => rfl

theorem written_of_not_writable (long : ¬number.Writable) :
    number.written = .error .unwrittenInteger := by
  cases number with
  | int value => exact Numeral.written_of_not_writable long
  | real value => exact absurd trivial long

end GameSearch.Number
