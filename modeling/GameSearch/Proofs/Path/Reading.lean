import Mathlib.Logic.Basic
import GameSearch.Path

/-!
# Reading paths back

The pieces of a text between slashes are those that its characters split into. A path that has been
read keeps at most two slashes in front, and its names are neither empty nor a single dot and hold no
slash. Every such path is read back from its text.
-/

namespace GameSearch.Path

variable {path : Path} {chars piece : List Char} {names : List String}

theorem pieces_eq_splitOn (chars : List Char) : pieces chars = chars.splitOn '/' := by
  induction chars with
  | nil => rw [pieces, List.splitOn_nil]
  | cons char chars ih =>
      rw [List.splitOn_cons_eq_if_modifyHead]
      by_cases slash : char = '/'
      · subst slash
        rw [pieces, ih, if_pos (beq_self_eq_true '/')]
      · rw [if_neg (by simpa using slash), ← ih, pieces]
        · cases found : pieces chars with
          | nil => exact absurd (ih ▸ found) (List.splitOn_ne_nil '/' chars)
          | cons first others => rfl
        · exact slash

theorem slash_not_mem_of_mem_pieces (mem : piece ∈ pieces chars) : '/' ∉ piece := by
  induction chars generalizing piece with
  | nil =>
      rw [pieces, List.mem_singleton] at mem
      simp [mem]
  | cons char chars ih =>
      by_cases slash : char = '/'
      · subst slash
        rw [pieces, List.mem_cons] at mem
        rcases mem with rfl | later
        · exact List.not_mem_nil
        · exact ih later
      · rw [pieces] at mem
        · cases found : pieces chars with
          | nil => exact absurd (pieces_eq_splitOn chars ▸ found) (List.splitOn_ne_nil '/' chars)
          | cons first others =>
              rw [found, List.mem_cons] at mem
              rcases mem with rfl | later
              · have clear := ih (found ▸ List.mem_cons_self)
                simp [clear, Ne.symm slash]
              · exact ih (found ▸ List.mem_cons_of_mem _ later)
        · exact slash

/-- Pieces without slashes that texts start with are told apart by the first slash. -/
theorem eq_of_append_slash {first second rest others : List Char} (first_clear : '/' ∉ first)
    (second_clear : '/' ∉ second) (same : first ++ '/' :: rest = second ++ '/' :: others) :
    first = second := by
  have split_eq := congrArg (List.splitOn '/') same
  rw [List.splitOn_append_cons_self_of_not_mem first_clear,
    List.splitOn_append_cons_self_of_not_mem second_clear] at split_eq
  exact List.head_eq_of_cons_eq split_eq

/-- A path as it can be read from a text. -/
structure WellFormed (path : Path) : Prop where
  slashes_le : path.slashes ≤ 2
  isName : ∀ name ∈ path.names, isName name.toList = true
  slash_not_mem : ∀ name ∈ path.names, '/' ∉ name.toList

theorem wellFormed_ofText (text : String) : (ofText text).WellFormed := by
  constructor
  · simp only [ofText, countSlashes]
    split
    · exact Nat.le_refl 2
    · exact Nat.le_trans (Nat.min_le_right _ 1) (by decide)
  · intro name mem
    rcases List.mem_map.mp mem with ⟨piece, piece_mem, rfl⟩
    rw [String.toList_ofList]
    exact (List.mem_filter.mp piece_mem).2
  · intro name mem
    rcases List.mem_map.mp mem with ⟨piece, piece_mem, rfl⟩
    rw [String.toList_ofList]
    exact slash_not_mem_of_mem_pieces (List.mem_filter.mp piece_mem).1

/-- The names of a path with slashes between them. -/
def joined (names : List String) : List Char := ['/'].intercalate (names.map String.toList)

theorem joined_cons_of_ne_nil {name : String} (some_left : names ≠ []) :
    joined (name :: names) = name.toList ++ '/' :: joined names := by
  rw [joined, List.map_cons, List.intercalate_cons_of_ne_nil (by simpa using some_left)]
  simp [joined]

theorem joined_singleton (name : String) : joined [name] = name.toList :=
  List.intercalate_singleton

/-- What is written after the last name makes that name longer. -/
theorem joined_concat (names : List String) (last ending : String) :
    joined (names ++ [last ++ ending]) = joined (names ++ [last]) ++ ending.toList := by
  induction names with
  | nil => simp [joined_singleton]
  | cons name names ih =>
      rw [List.cons_append, joined_cons_of_ne_nil (by simp), ih, List.cons_append,
        joined_cons_of_ne_nil (by simp), List.append_assoc, List.cons_append]

theorem joined_ne_nil {name : String} (mem : name ∈ names) (filled : name ≠ "") :
    joined names ≠ [] := by
  cases names with
  | nil => cases mem
  | cons first others =>
      by_cases alone : others = []
      · subst alone
        rw [List.mem_singleton] at mem
        rw [joined_singleton, ← mem]
        simpa using filled
      · simp [joined_cons_of_ne_nil alone]

theorem toList_text (written : path.slashes ≠ 0 ∨ ∃ name ∈ path.names, name ≠ "") :
    path.text.toList = List.replicate path.slashes '/' ++ joined path.names := by
  have toList_eq : (String.ofList (List.replicate path.slashes '/') ++
      "/".intercalate path.names).toList = List.replicate path.slashes '/' ++ joined path.names := by
    simp [joined, String.toList_intercalate]
  have not_empty : (String.ofList (List.replicate path.slashes '/') ++
      "/".intercalate path.names).isEmpty = false := by
    rw [Bool.eq_false_iff, ne_eq, String.isEmpty_iff, ← String.toList_eq_nil_iff, toList_eq,
      List.append_eq_nil_iff, List.replicate_eq_nil_iff, not_and_or]
    rcases written with rooted | ⟨name, mem, filled⟩
    · exact .inl rooted
    · exact .inr (joined_ne_nil mem filled)
  simp only [text, not_empty, Bool.false_eq_true, if_false, toList_eq]

theorem pieces_replicate_append (count : Nat) (rest : List Char) :
    pieces (List.replicate count '/' ++ rest) = List.replicate count [] ++ pieces rest := by
  induction count with
  | zero => rfl
  | succ count ih => rw [List.replicate_succ, List.cons_append, pieces, ih]; rfl

namespace WellFormed

theorem ne_empty (wellFormed : path.WellFormed) {name : String} (mem : name ∈ path.names) :
    name ≠ "" := by
  rintro rfl
  exact Bool.false_ne_true (wellFormed.isName "" mem)

/-- Names of a well-formed path make one as well. -/
theorem of_names (wellFormed : path.WellFormed) {slashes : Nat} (slashes_le : slashes ≤ 2)
    (subset : ∀ name ∈ names, name ∈ path.names) : WellFormed ⟨slashes, names⟩ where
  slashes_le := slashes_le
  isName := fun name mem => wellFormed.isName name (subset name mem)
  slash_not_mem := fun name mem => wellFormed.slash_not_mem name (subset name mem)

theorem filter_pieces_joined (wellFormed : path.WellFormed) :
    (pieces (joined path.names)).filter Path.isName = path.names.map String.toList := by
  by_cases bare : path.names = []
  · rw [bare]
    rfl
  · rw [pieces_eq_splitOn, joined, List.splitOn_intercalate '/' _ (by simpa using bare),
      List.filter_eq_self, List.forall_mem_map]
    · exact wellFormed.isName
    · rw [List.forall_mem_map]
      exact wellFormed.slash_not_mem

theorem takeWhile_joined (wellFormed : path.WellFormed) :
    (joined path.names).takeWhile (· == '/') = [] := by
  cases named : path.names with
  | nil => rfl
  | cons name names =>
      have mem : name ∈ path.names := named ▸ List.mem_cons_self
      have filled := wellFormed.ne_empty mem
      have clear := wellFormed.slash_not_mem name mem
      rw [ne_eq, ← String.toList_eq_nil_iff] at filled
      rcases List.exists_cons_of_ne_nil filled with ⟨first, others, toList_eq⟩
      have apart : first ≠ '/' := by
        rintro rfl
        simp [toList_eq] at clear
      by_cases alone : names = []
      · rw [alone, joined_singleton, toList_eq]
        simp [apart]
      · rw [joined_cons_of_ne_nil alone, toList_eq]
        simp [apart]

theorem countSlashes_eq (wellFormed : path.WellFormed) :
    countSlashes (List.replicate path.slashes '/' ++ joined path.names) = path.slashes := by
  have count_eq : ((List.replicate path.slashes '/' ++ joined path.names).takeWhile
      (· == '/')).length = path.slashes := by
    rw [List.takeWhile_append_of_pos (by simp [List.mem_replicate]), wellFormed.takeWhile_joined]
    simp
  have small := wellFormed.slashes_le
  rw [countSlashes, count_eq]
  split
  · rename_i two
    exact two.symm
  · exact Nat.min_eq_left (by omega)

/-- A path is read back from its text. -/
theorem ofText_text (wellFormed : path.WellFormed) : ofText path.text = path := by
  by_cases written : path.slashes ≠ 0 ∨ ∃ name ∈ path.names, name ≠ ""
  · rw [ofText, toList_text written, wellFormed.countSlashes_eq, pieces_replicate_append,
      List.filter_append, wellFormed.filter_pieces_joined]
    have dropped : (List.replicate path.slashes ([] : List Char)).filter Path.isName = [] := by
      simp [Path.isName]
    simp [dropped, Function.comp_def]
  · rw [not_or, not_exists] at written
    rcases path with ⟨slashes, names⟩
    obtain rfl : slashes = 0 := by simpa using written.1
    obtain rfl : names = [] := by
      rw [List.eq_nil_iff_forall_not_mem]
      exact fun name mem => written.2 name ⟨mem, wellFormed.ne_empty mem⟩
    rfl

end WellFormed

/-- A name is split before its last dot, unless that is at either end. -/
theorem splitSuffix_append {start ending : List Char} (start_ne : start ≠ []) (ending_ne : ending ≠ [])
    (dotless : '.' ∉ ending) : splitSuffix (start ++ '.' :: ending) = (start, '.' :: ending) := by
  have reversed : (start ++ '.' :: ending).reverse = ending.reverse ++ '.' :: start.reverse := by
    simp
  have passed : ∀ char ∈ ending.reverse, (char != '.') = true := by
    intro char mem
    rw [bne_iff_ne]
    rintro rfl
    exact dotless (List.mem_reverse.mp mem)
  have taken : (ending.reverse ++ '.' :: start.reverse).takeWhile (· != '.') = ending.reverse := by
    rw [List.takeWhile_append_of_pos passed]
    simp
  have left : (ending.reverse ++ '.' :: start.reverse).dropWhile (· != '.') =
      '.' :: start.reverse := by
    rw [List.dropWhile_append_of_pos passed]
    simp
  simp [splitSuffix, reversed, taken, left, start_ne, ending_ne]

end GameSearch.Path
