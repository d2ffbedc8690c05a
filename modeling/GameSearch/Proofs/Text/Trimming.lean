import GameSearch.Text.Blank
import GameSearch.Text.Letter

/-!
# Trimming

What is left of a text after trimming has no dropped character at either end, and a text without one
there is left as it is. Letters are not blank, and neither are the digits that numbers are written with.
-/

namespace GameSearch.Text

variable {isDropped : Char → Bool} {chars : List Char}

/-- No character of a class is at either end. -/
structure Trimmed (isDropped : Char → Bool) (chars : List Char) : Prop where
  first : ∀ char, chars.head? = some char → isDropped char = false
  last : ∀ char, chars.getLast? = some char → isDropped char = false

theorem head?_dropWhile {char : Char} (at_head : (chars.dropWhile isDropped).head? = some char) :
    isDropped char = false := by
  have kept := List.head?_dropWhile_not isDropped chars
  rw [at_head] at kept
  exact kept

theorem dropWhile_eq_self (kept : ∀ char, chars.head? = some char → isDropped char = false) :
    chars.dropWhile isDropped = chars := by
  cases chars with
  | nil => rfl
  | cons char chars => exact List.dropWhile_cons_of_neg (by simp [kept char rfl])

theorem trimmed_trimBy (isDropped : Char → Bool) (chars : List Char) :
    Trimmed isDropped (trimBy isDropped chars) := by
  constructor
  · intro char at_head
    rw [trimBy, List.head?_reverse] at at_head
    -- What is kept of the reversed characters ends as they do.
    rcases List.dropWhile_suffix (l := (chars.dropWhile isDropped).reverse) isDropped with
      ⟨dropped, whole⟩
    have at_head_kept : (chars.dropWhile isDropped).head? = some char := by
      rw [← List.getLast?_reverse, ← whole, List.getLast?_append, at_head]
      rfl
    exact head?_dropWhile at_head_kept
  · intro char at_last
    rw [trimBy, List.getLast?_reverse] at at_last
    exact head?_dropWhile at_last

theorem Trimmed.trimBy_eq (trimmed : Trimmed isDropped chars) : trimBy isDropped chars = chars := by
  rw [trimBy, dropWhile_eq_self trimmed.first, dropWhile_eq_self, List.reverse_reverse]
  intro char at_head
  rw [List.head?_reverse] at at_head
  exact trimmed.last char at_head

variable {char : Char}

theorem isBlank_eq_false_of_isLetter (letter : isLetter char = true) : isBlank char = false := by
  have spaces : ∀ range ∈ spaceRanges, ∀ code ∈ List.range' range.1 (range.2 + 1 - range.1),
      isLetter (Char.ofNat code) = false := by decide +kernel
  have separators : ∀ code ∈ List.range' 28 4, isLetter (Char.ofNat code) = false := by
    decide +kernel
  rw [Bool.eq_false_iff]
  intro blank
  rw [isBlank, Bool.or_eq_true, isSpace, inRanges_iff, Bool.and_eq_true, decide_eq_true_eq,
    decide_eq_true_eq] at blank
  have other : isLetter (Char.ofNat char.toNat) = false := by
    rcases blank with ⟨range, mem, low, high⟩ | ⟨low, high⟩
    · exact spaces range mem char.toNat (List.mem_range'_1.mpr ⟨low, by omega⟩)
    · exact separators char.toNat (List.mem_range'_1.mpr ⟨low, by omega⟩)
  rw [Char.ofNat_toNat, letter] at other
  cases other

theorem isBlank_eq_false_of_isDigit (digit : char.isDigit = true) : isBlank char = false := by
  have digits : ∀ code ∈ List.range' 48 10, isBlank (Char.ofNat code) = false := by decide +kernel
  rw [Char.isDigit_iff_toNat] at digit
  have filled := digits char.toNat (List.mem_range'_1.mpr ⟨digit.1, Nat.lt_succ_of_le digit.2⟩)
  rw [Char.ofNat_toNat] at filled
  exact filled

end GameSearch.Text
