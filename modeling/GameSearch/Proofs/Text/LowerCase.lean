import GameSearch.Text.LowerCase

/-!
# Lower case once and for all

Lower-casing leaves small letters and whatever has no case as they are, and all that it writes is of
that kind. This rests on the table of capitals, which keeps clear of the small letters that stand for
its entries: the small letters of a run lie apart from the capitals of every other run, or they
alternate with them.
-/

namespace GameSearch.Text

variable {char small : Char} {chars : List Char}

/-- A character that lower-casing leaves as it is. -/
def IsSmall (char : Char) : Prop := lowerChar char = [char]

theorem toNat_ofNat {code : Nat} (valid : code.isValidChar) : (Char.ofNat code).toNat = code := by
  rw [Char.ofNat, dif_pos valid]
  rfl

namespace CapitalRun

variable {run other : CapitalRun} {code : Nat}

/-- The code point of the small letter of a capital. -/
def smallCode (run : CapitalRun) (code : Nat) : Nat := (code + run.shift).toNat

theorem contains_iff : run.contains code = true ↔
    run.first ≤ code ∧ code ≤ run.last ∧ (code - run.first) % run.step = 0 := by
  simp [contains, and_assoc]

/-- Whether code points from `low` to `high` are no capitals of a run: they lie apart from it, or all
of them have the parity that its capitals do not have. -/
def clears (low high : Nat) (alternate : Bool) (other : CapitalRun) : Bool :=
  Nat.blt high other.first || Nat.blt other.last low ||
    (alternate && other.step == 2 && (low + other.first) % 2 == 1)

/-- Whether the small letters of a run are characters, none of which lower-casing changes. -/
def isSettled (run : CapitalRun) : Bool :=
  let low := run.smallCode run.first
  let high := run.smallCode run.last
  let alternate := run.step == 2 || run.first == run.last
  decide (0 ≤ run.first + run.shift) && (Nat.blt high 304 || Nat.blt 304 low) &&
    (Nat.blt high 0xD800 || (Nat.blt 0xDFFF low && Nat.blt high 0x110000)) &&
    capitalRuns.all fun other => clears low high alternate other

theorem isSettled_of_mem : ∀ run ∈ capitalRuns, run.isSettled = true :=
  List.all_eq_true.mp (by decide +kernel)

/-- The small letters of a run lie between those of its ends, and in an alternating run all of them
have the same parity. -/
theorem smallCode_bounds (rising : 0 ≤ run.first + run.shift) (capital : run.contains code = true) :
    run.smallCode run.first ≤ run.smallCode code ∧ run.smallCode code ≤ run.smallCode run.last ∧
      ((run.step == 2 || run.first == run.last) = true →
        run.smallCode code % 2 = run.smallCode run.first % 2) := by
  rcases contains_iff.mp capital with ⟨low, high, stepped⟩
  unfold smallCode
  refine ⟨by omega, by omega, ?_⟩
  intro alternate
  rw [Bool.or_eq_true, beq_iff_eq, beq_iff_eq] at alternate
  rcases alternate with two | single
  · rw [two] at stepped
    omega
  · have same : code = run.first := by omega
    rw [same]

theorem not_contains_smallCode (mem : run ∈ capitalRuns) (other_mem : other ∈ capitalRuns)
    (capital : run.contains code = true) : ¬other.contains (run.smallCode code) = true := by
  have settled := isSettled_of_mem run mem
  simp only [isSettled, Bool.and_eq_true, decide_eq_true_eq, List.all_eq_true] at settled
  rcases settled with ⟨⟨⟨rising, -⟩, -⟩, clear⟩
  rcases smallCode_bounds rising capital with ⟨low, high, parity⟩
  have apart := clear other other_mem
  simp only [clears, Bool.or_eq_true, Bool.and_eq_true, Nat.blt_eq, beq_iff_eq] at apart parity
  rw [contains_iff]
  rintro ⟨inside, below, stepped⟩
  rcases apart with (past | before) | ⟨⟨alternate, two⟩, odd⟩
  · omega
  · omega
  · have same_parity := parity alternate
    rw [two] at stepped
    omega

theorem isValidChar_smallCode (mem : run ∈ capitalRuns) (capital : run.contains code = true) :
    (run.smallCode code).isValidChar ∧ run.smallCode code ≠ 304 := by
  have settled := isSettled_of_mem run mem
  simp only [isSettled, Bool.and_eq_true, Bool.or_eq_true, Nat.blt_eq, decide_eq_true_eq] at settled
  rcases settled with ⟨⟨⟨rising, undotted⟩, valid⟩, -⟩
  rcases smallCode_bounds rising capital with ⟨low, high, -⟩
  refine ⟨?_, by omega⟩
  rcases valid with before | ⟨past, last⟩
  · exact .inl (by omega)
  · exact .inr ⟨by omega, by omega⟩

end CapitalRun

theorem isSmall_of_ascii (ascii : char.toNat < 128) (small : ¬(65 ≤ char.toNat ∧ char.toNat ≤ 90)) :
    IsSmall char := by
  have unchanged : char.toLower = char := by
    unfold Char.toLower
    refine dif_neg fun capital => small ?_
    simpa [UInt32.le_iff_toNat_le] using capital
  rw [IsSmall, lowerChar, if_pos ascii, unchanged]

theorem isSmall_of_not_capital (undotted : char.toNat ≠ 304)
    (small : ∀ run ∈ capitalRuns, ¬run.contains char.toNat = true) : IsSmall char := by
  by_cases ascii : char.toNat < 128
  · apply isSmall_of_ascii ascii
    rintro ⟨low, high⟩
    apply small ⟨65, 90, 1, 32⟩ List.mem_cons_self
    exact CapitalRun.contains_iff.mpr ⟨low, high, Nat.mod_one _⟩
  · rw [IsSmall, lowerChar, if_neg ascii, if_neg undotted, List.find?_eq_none.mpr small]

/-- The dot above and the small sigmas, which no run of the table writes, are no capitals of it. -/
theorem isSmall_of_mem_unlisted {code : Nat} (mem : code ∈ [775, 962, 963]) :
    IsSmall (Char.ofNat code) := by
  have apart : ∀ code ∈ [775, 962, 963], (Char.ofNat code).toNat ≠ 304 ∧
      (capitalRuns.all fun run => !run.contains (Char.ofNat code).toNat) = true := by
    decide +kernel
  rcases apart code mem with ⟨undotted, clear⟩
  apply isSmall_of_not_capital undotted
  intro run run_mem
  simpa using List.all_eq_true.mp clear run run_mem

/-- What stands for a character in lower case is not changed again. -/
theorem isSmall_of_mem_lowerChar (mem : small ∈ lowerChar char) : IsSmall small := by
  unfold lowerChar at mem
  split at mem
  · rename_i ascii
    have settled : ∀ code < 128, IsSmall (Char.ofNat code).toLower := by
      unfold IsSmall
      decide +kernel
    obtain rfl := List.mem_singleton.mp mem
    have lowered := settled char.toNat ascii
    rw [Char.ofNat_toNat] at lowered
    exact lowered
  · split at mem
    · rcases List.mem_cons.mp mem with rfl | dot
      · exact isSmall_of_ascii (by decide) (by decide)
      · rw [List.mem_singleton.mp dot]
        exact isSmall_of_mem_unlisted List.mem_cons_self
    · rename_i undotted
      split at mem
      · rename_i run found
        have run_mem := List.mem_of_find?_eq_some found
        have capital := List.find?_some found
        rcases run.isValidChar_smallCode run_mem capital with ⟨valid, small_undotted⟩
        obtain rfl := List.mem_singleton.mp mem
        have toNat_eq : (Char.ofNat (Int.toNat (char.toNat + run.shift))).toNat =
            run.smallCode char.toNat := toNat_ofNat valid
        apply isSmall_of_not_capital
        · rw [toNat_eq]
          exact small_undotted
        · intro other other_mem
          rw [toNat_eq]
          exact CapitalRun.not_contains_smallCode run_mem other_mem capital
      · rename_i missing
        obtain rfl := List.mem_singleton.mp mem
        exact isSmall_of_not_capital undotted (List.find?_eq_none.mp missing)

/-- A text in lower case has no character left that lower-casing changes. -/
theorem isSmall_of_mem_lowerList {inWord : Bool} (mem : small ∈ lowerList inWord chars) :
    IsSmall small := by
  induction chars generalizing inWord with
  | nil => cases mem
  | cons char chars ih =>
      rw [lowerList] at mem
      rcases List.mem_append.mp mem with here | later
      · split at here
        · rw [List.mem_singleton.mp here]
          apply isSmall_of_mem_unlisted
          split <;> simp
        · exact isSmall_of_mem_lowerChar here
      · exact ih later

theorem IsSmall.toNat_ne_sigma (small : IsSmall char) : char.toNat ≠ 931 := by
  intro sigma
  have changed : ¬IsSmall (Char.ofNat 931) := by
    unfold IsSmall
    decide +kernel
  rw [← sigma, Char.ofNat_toNat] at changed
  exact changed small

theorem lowerList_eq_self {inWord : Bool} (small : ∀ char ∈ chars, IsSmall char) :
    lowerList inWord chars = chars := by
  induction chars generalizing inWord with
  | nil => rfl
  | cons char chars ih =>
      rw [List.forall_mem_cons] at small
      have unchanged : lowerChar char = [char] := small.1
      rw [lowerList, if_neg small.1.toNat_ne_sigma, unchanged, ih small.2]
      rfl

end GameSearch.Text
