import GameSearch.Proofs.Decimal.Written
import GameSearch.Proofs.Nim.Dialogue
import GameSearch.Proofs.Text.LowerCase
import GameSearch.Proofs.Text.Trimming

/-!
# Typing actions

The text of an action is the letter of its pile followed by the amount. It is read in lower case, and
as a letter followed by digits. So the text of an action is read back as the action if its pile goes by
a letter that lower-casing leaves as it is, and the amount has no more digits than can be read. The
first twenty-six piles have such letters.

No other action can be typed at all, in its own text or in any other: what is read in lower case has
no other letters. The pile after the first twenty-six goes by a brace.
-/

namespace GameSearch.Numeral

variable {digits : List Char} {digit : Char} {number value : Nat}

theorem digitValue?_of_isDigit (ascii : digit.isDigit = true) :
    Text.digitValue? digit = some (digit.toNat - '0'.toNat) := by
  rw [Char.isDigit_iff_toNat] at ascii
  have covers : (decide (48 ≤ digit.toNat) && decide (digit.toNat < 48 + 10)) = true := by
    rw [Bool.and_eq_true, decide_eq_true_eq, decide_eq_true_eq]
    exact ⟨ascii.1, Nat.lt_succ_of_le ascii.2⟩
  have found : (Text.zeros.find? fun base => base ≤ digit.toNat && digit.toNat < base + 10) =
      some 48 := List.find?_cons_of_pos covers
  rw [Text.digitValue?, found]
  rfl

theorem digitValue?_lt (found : Text.digitValue? digit = some value) : value < 10 := by
  rcases Option.map_eq_some_iff.mp found with ⟨base, base_eq, rfl⟩
  have covers := List.find?_some base_eq
  rw [Bool.and_eq_true, decide_eq_true_eq, decide_eq_true_eq] at covers
  omega

/-- The digits that a number is written with spell it. -/
theorem spells_toDigits (writable : Writable number) : Spells (Nat.toDigits 10 number) number := by
  let values := (Nat.toDigits 10 number).map fun digit => digit.toNat - '0'.toNat
  have values_eq : (Nat.toDigits 10 number).map Text.digitValue? = values.map some := by
    rw [List.map_map]
    refine List.map_congr_left fun digit mem => ?_
    exact digitValue?_of_isDigit (Nat.isDigit_of_mem_toDigits (by decide) (by decide) mem)
  have number_eq : number = Nat.ofDigits 10 values.reverse := by
    rw [← foldl_digits, List.foldl_map, List.foldl_map]
    exact Nat.ofDigitChars_ten_toDigits.symm
  exact ⟨(Nat.length_toDigits_le_iff (by decide) (by decide)).mpr writable, values, values_eq,
    number_eq⟩

/-- Leading zeros count among the digits, so a number that has been read can be written. -/
theorem Spells.writable (spells : Spells digits number) : Writable number := by
  rcases spells with ⟨short, values, values_eq, rfl⟩
  have small : ∀ value ∈ values.reverse, value < 10 := by
    intro value mem
    have found : some value ∈ digits.map Text.digitValue? :=
      values_eq ▸ List.mem_map_of_mem (List.mem_reverse.mp mem)
    rcases List.mem_map.mp found with ⟨digit, -, digit_eq⟩
    exact digitValue?_lt digit_eq
  have length_eq : values.reverse.length = digits.length := by
    rw [List.length_reverse, ← List.length_map some, ← values_eq, List.length_map]
  calc Nat.ofDigits 10 values.reverse
      < 10 ^ values.reverse.length := Nat.ofDigits_lt_base_pow_length (by decide) small
    _ ≤ 10 ^ digitLimit := Nat.pow_le_pow_right (by decide) (length_eq ▸ short)

end GameSearch.Numeral

namespace GameSearch.Nim

variable {position : Position} {action : Action} {text line : String} {letter : Char}
  {digits : List Char}

/-- The text of an action: the letter of its pile and the amount. -/
def Action.typed (action : Action) : Except Fault String := do
  let letter ← pileLetter action.pile
  let amount ← Numeral.written action.amount
  return letter.toString ++ amount

/-- An action that can be typed: its pile goes by a letter of lower case, and the amount is not too
long. -/
def Action.Typeable (action : Action) : Prop :=
  Numeral.Writable action.amount ∧ ∃ letter, pileLetter action.pile = .ok letter ∧
    Text.isLetter letter = true ∧ Text.IsSmall letter

theorem pileLetter_eq_ok_iff {pile : Int} :
    pileLetter pile = .ok letter ↔ pile = (letter.toNat : Int) - 97 := by
  constructor
  · intro named
    simp only [pileLetter] at named
    split at named
    · rename_i valid
      rcases valid with ⟨nonneg, valid⟩
      cases named
      rw [Text.toNat_ofNat valid]
      omega
    · cases named
  · rintro rfl
    have code_eq : (97 + ((letter.toNat : Int) - 97)).toNat = letter.toNat := by omega
    have valid : letter.toNat.isValidChar := letter.valid
    simp only [pileLetter, code_eq, Char.ofNat_toNat]
    exact if_pos ⟨by omega, valid⟩

/-- A letter followed by digits is read as it stands if the letter is one of lower case. -/
theorem tidy_eq_self (toList_eq : text.toList = letter :: digits)
    (isLetter : Text.isLetter letter = true) (small : Text.IsSmall letter)
    (all_isDigit : ∀ digit ∈ digits, digit.isDigit = true) : tidy text = text := by
  have filled : ∀ char ∈ letter :: digits, Text.isBlank char = false := by
    rw [List.forall_mem_cons]
    exact ⟨Text.isBlank_eq_false_of_isLetter isLetter,
      fun digit mem => Text.isBlank_eq_false_of_isDigit (all_isDigit digit mem)⟩
  have trimmed : Text.Trimmed Text.isBlank (letter :: digits) :=
    ⟨fun char at_head => filled char (List.mem_of_mem_head? at_head),
      fun char at_last => filled char (List.mem_of_getLast? at_last)⟩
  have smalls : ∀ char ∈ letter :: digits, Text.IsSmall char := by
    rw [List.forall_mem_cons]
    refine ⟨small, fun digit mem => ?_⟩
    have ascii := Char.isDigit_iff_toNat.mp (all_isDigit digit mem)
    have high : digit.toNat ≤ 57 := ascii.2
    exact Text.isSmall_of_ascii (by omega) (by omega)
  rw [tidy, Text.lower, Text.trim, String.toList_ofList, toList_eq, trimmed.trimBy_eq,
    Text.lowerList_eq_self smalls, ← toList_eq, String.ofList_toList]

/-- The text of an action that can be typed denotes it. -/
theorem Action.Typeable.denotes (typeable : action.Typeable) (nonneg : 0 ≤ action.amount) :
    ∃ text, action.typed = .ok text ∧ Denotes (tidy text) action := by
  rcases typeable with ⟨writable, letter, letter_eq, isLetter, small⟩
  rcases action with ⟨pile, amount⟩
  obtain ⟨number, rfl⟩ := Int.eq_ofNat_of_zero_le nonneg
  let text := letter.toString ++ toString number
  have typed_eq : typed ⟨pile, number⟩ = .ok text := by
    rw [typed, letter_eq, Numeral.written_of_writable writable]
    rfl
  have toList_eq : text.toList = letter :: Nat.toDigits 10 number := by
    simp [text]
  have all_isDigit : ∀ digit ∈ Nat.toDigits 10 number, digit.isDigit = true :=
    fun digit mem => Nat.isDigit_of_mem_toDigits (by decide) (by decide) mem
  refine ⟨text, typed_eq, ?_⟩
  rw [tidy_eq_self toList_eq isLetter small all_isDigit]
  have form : HasForm text letter (Nat.toDigits 10 number) := by
    refine ⟨toList_eq, Nat.toDigits_ne_nil, isLetter, fun digit mem => ?_⟩
    rw [Text.isDigit, Numeral.digitValue?_of_isDigit (all_isDigit digit mem)]
    rfl
  obtain rfl : pile = (letter.toNat : Int) - 97 := pileLetter_eq_ok_iff.mp letter_eq
  exact ⟨letter, _, number, form, Numeral.spells_toDigits writable, rfl⟩

/-- Whatever line an action is typed with, it is one that can be typed. -/
theorem typeable_of_denotes (denotes : Denotes (tidy line) action) : action.Typeable := by
  rcases denotes with ⟨letter, digits, number, form, spells, rfl⟩
  refine ⟨spells.writable, letter, pileLetter_eq_ok_iff.mpr rfl, form.isLetter, ?_⟩
  have lowered := form.toList_eq
  rw [tidy, Text.lower, String.toList_ofList] at lowered
  exact Text.isSmall_of_mem_lowerList (lowered ▸ List.mem_cons_self)

/-- The answer of a dialogue is what one of its lines denotes. -/
theorem exists_denotes_of_ask {lines : List String} {shown : String}
    (answered : (ask position lines shown).1 = .ok action) :
    ∃ line ∈ lines, Denotes (tidy line) action := by
  induction lines generalizing shown with
  | nil => cases answered
  | cons line lines ih =>
      rw [ask] at answered
      split at answered
      · cases answered
      · rename_i typed typed_eq
        split at answered
        · rename_i other found
          cases answered
          rw [Option.filter_eq_some_iff] at found
          rw [found.1] at typed_eq
          exact ⟨line, List.mem_cons_self, ofTyped_eq_some_iff.mp typed_eq⟩
        · rcases ih answered with ⟨later, mem, denotes⟩
          exact ⟨later, List.mem_cons_of_mem _ mem, denotes⟩

/-- The first twenty-six piles go by the small letters from a to z. -/
theorem typeable_iff_of_lt {pile : Nat} (low : pile < 26) (pile_eq : action.pile = pile) :
    action.Typeable ↔ Numeral.Writable action.amount := by
  refine ⟨And.left, fun writable => ⟨writable, Char.ofNat (97 + pile), ?_⟩⟩
  have valid : (97 + pile).isValidChar := .inl (by omega)
  have toNat_eq := Text.toNat_ofNat valid
  refine ⟨pileLetter_eq_ok_iff.mpr ?_, ?_, Text.isSmall_of_ascii (by omega) (by omega)⟩
  · rw [toNat_eq, pile_eq]
    omega
  · have letters : ∀ pile < 26, Text.isLetter (Char.ofNat (97 + pile)) = true := by decide +kernel
    exact letters pile low

/-- A legal action whose pile goes by a letter of lower case is read back from its own text, and a
human who types this text plays it. The actions on the first twenty-six piles are such, however many
objects up to the longest number they take. Any other action cannot be typed in any way. -/
theorem typed_read_back (legal : action ∈ game.legal position position.turn) :
    (action.Typeable → ∃ text, action.typed = .ok text ∧
      Action.ofTyped (tidy text) = .ok (some action) ∧
      ∀ board, position.board = .ok board → ∀ lines shown,
        askHuman position ⟨text :: lines, shown⟩ =
          (.ok action, ⟨lines, shown ++ board ++ "\n" ++ question position⟩)) ∧
    (¬action.Typeable →
      (∀ line, Action.ofTyped (tidy line) ≠ .ok (some action)) ∧
      ∀ dialogue, (askHuman position dialogue).1 ≠ .ok action) ∧
    (action.pile < 26 → (action.Typeable ↔ Numeral.Writable action.amount)) := by
  rcases Position.mem_legal.mp legal with ⟨-, -, pile, size, -, pile_eq, one_le, -⟩
  refine ⟨?_, ?_, ?_⟩
  · intro typeable
    rcases typeable.denotes (by omega) with ⟨text, typed_eq, denotes⟩
    refine ⟨text, typed_eq, ofTyped_of_denotes denotes, ?_⟩
    intro board drawn lines shown
    rw [askHuman_eq_ask drawn, ask_of_denotes denotes legal]
  · intro untypeable
    refine ⟨fun line typed => ?_, fun dialogue answered => ?_⟩
    · exact untypeable (typeable_of_denotes (ofTyped_eq_some_iff.mp typed))
    · unfold askHuman at answered
      split at answered
      · cases answered
      · rcases exists_denotes_of_ask answered with ⟨line, -, denotes⟩
        exact untypeable (typeable_of_denotes denotes)
  · intro low
    exact typeable_iff_of_lt (by omega) pile_eq

/-- Taking eleven objects from the third pile is typed as the letter c and two digits. -/
theorem typed_read_back_third :
    let start : Position := ⟨[3, 0, 12], .two, none, false, by simp, by simp⟩
    ⟨2, 11⟩ ∈ game.legal start start.turn ∧ Action.typed ⟨2, 11⟩ = .ok "c11" ∧
      ∃ shown, askHuman start ⟨["c11", "a1"], ""⟩ = (.ok ⟨2, 11⟩, ⟨["a1"], shown⟩) := by
  intro start
  have legal : ⟨2, 11⟩ ∈ game.legal start start.turn := play_isOk_iff.mp rfl
  rcases typed_read_back legal with ⟨typeable, -, first⟩
  have writable : Numeral.Writable 11 := Numeral.length_toString_le_iff.mp (by decide)
  rcases typeable ((first (by decide)).mpr writable) with ⟨text, typed_eq, -, answers⟩
  have text_eq : Action.typed ⟨2, 11⟩ = .ok "c11" := rfl
  rw [text_eq, Except.ok.injEq] at typed_eq
  subst typed_eq
  exact ⟨legal, text_eq, _, answers _ rfl ["a1"] ""⟩

/-- The pile after the first twenty-six goes by a brace, and an action on it is not read back from its
text. -/
theorem typed_brace :
    ¬∀ (position : Position) (action : Action) (text : String),
      action ∈ game.legal position position.turn → action.typed = .ok text →
        Action.ofTyped (tidy text) = .ok (some action) := by
  intro claimed
  let start : Position := ⟨List.replicate 26 0 ++ [1], .one, none, false, by simp, by simp⟩
  have legal : ⟨26, 1⟩ ∈ game.legal start start.turn := play_isOk_iff.mp rfl
  have typed_eq : Action.typed ⟨26, 1⟩ = .ok "\x7b1" := rfl
  have unread : Action.ofTyped (tidy "\x7b1") = .ok none := rfl
  rw [claimed start ⟨26, 1⟩ _ legal typed_eq] at unread
  cases unread

end GameSearch.Nim
