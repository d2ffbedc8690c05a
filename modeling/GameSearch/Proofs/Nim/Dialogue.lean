import Mathlib.Data.List.Induction
import Mathlib.Data.List.TakeWhile
import Mathlib.Data.Nat.Digits.Defs
import GameSearch.Nim.Human
import GameSearch.Proofs.Decimal.Written

/-!
# Dialogues with a player

A text denotes an action if it is a letter followed by the digits of a number. Digits that belong to no
positional system count as digits and have no place in a number, so a text with one of them has the
form of an action without denoting any, as does one of too many digits. Reading such a text is a
fault; every other text is read as the action that it denotes or as none.

A dialogue passes over the lines that denote no legal action, and the first that does is the answer. A
line that cannot be read ends the dialogue before that.
-/

namespace GameSearch.Numeral

variable {digits : List Char} {number : Nat}

/-- The digits write a number of a length that can be read. -/
def Spells (digits : List Char) (number : Nat) : Prop :=
  digits.length ≤ digitLimit ∧
    ∃ values : List Nat, digits.map Text.digitValue? = values.map some ∧
      number = Nat.ofDigits 10 values.reverse

theorem foldl_digits (values : List Nat) :
    (values.map some).foldl (fun number digit => 10 * number + digit.getD 0) 0 =
      Nat.ofDigits 10 values.reverse := by
  induction values using List.reverseRecOn with
  | nil => rfl
  | append_singleton values value ih =>
      rw [List.map_append, List.foldl_append, ih, List.reverse_concat, Nat.ofDigits_cons]
      simp [Nat.add_comm]

/-- A number is spelled unless the digits are too many or one of them has no place value. -/
theorem exists_spells_iff :
    (∃ number, Spells digits number) ↔
      digits.length ≤ digitLimit ∧ ∀ digit ∈ digits, (Text.digitValue? digit).isSome := by
  constructor
  · rintro ⟨number, short, values, values_eq, -⟩
    refine ⟨short, fun digit mem => ?_⟩
    have value_mem : Text.digitValue? digit ∈ values.map some :=
      values_eq ▸ List.mem_map_of_mem mem
    rcases List.mem_map.mp value_mem with ⟨value, -, value_eq⟩
    simp [← value_eq]
  · rintro ⟨short, positional⟩
    let values := digits.map fun digit => (Text.digitValue? digit).getD 0
    refine ⟨Nat.ofDigits 10 values.reverse, short, values, ?_, rfl⟩
    rw [List.map_map]
    refine List.map_congr_left fun digit mem => ?_
    rcases Option.isSome_iff_exists.mp (positional digit mem) with ⟨value, value_eq⟩
    simp [value_eq]

theorem ofDigits_of_spells (spells : Spells digits number) : ofDigits digits = .ok number := by
  rcases spells with ⟨short, values, values_eq, rfl⟩
  have all_some : (values.map some).takeWhile Option.isSome = values.map some := by
    rw [List.takeWhile_eq_self_iff]
    simp
  have length_eq : (values.map some).length = digits.length := by
    rw [← values_eq, List.length_map]
  rw [ofDigits]
  simp only [values_eq, all_some, length_eq, Nat.not_lt.mpr short, if_false, ne_eq, not_true,
    foldl_digits]

/-- The faults of digits that spell no number: there are too many of them before the first without a
place value, or they are no integer as a whole. -/
def Refuses (digits : List Char) (fault : Fault) : Prop :=
  (∃ count, digitLimit < count ∧ count ≤ digits.length ∧ fault = .longInteger count) ∨
    fault = .notAnInteger (String.ofList digits)

theorem ofDigits_of_not_spells (wrong : ∀ number, ¬Spells digits number) :
    ∃ fault, ofDigits digits = .error fault ∧ Refuses digits fault := by
  have leading_le := (List.takeWhile_prefix Option.isSome (l := digits.map Text.digitValue?)).length_le
  rw [List.length_map] at leading_le
  rw [ofDigits]
  split
  · rename_i long
    exact ⟨_, rfl, .inl ⟨_, long, leading_le, rfl⟩⟩
  · rename_i short
    split
    · exact ⟨_, rfl, .inr rfl⟩
    · rename_i whole
      refine absurd (exists_spells_iff.mpr ⟨?_, fun digit mem => ?_⟩) (not_exists.mpr wrong)
      · rw [Decidable.not_not, List.length_map] at whole
        omega
      · have whole_eq := (List.takeWhile_prefix _).eq_of_length (Decidable.not_not.mp whole).symm
        exact List.takeWhile_eq_self_iff.mp whole_eq _ (List.mem_map_of_mem mem)

end GameSearch.Numeral

namespace GameSearch.Nim

variable {text line : String} {letter : Char} {digits : List Char} {action : Action}
  {position : Position} {lines skipped : List String} {shown : String}

/-- A letter followed by at least one digit, of any scripts. -/
structure HasForm (text : String) (letter : Char) (digits : List Char) : Prop where
  toList_eq : text.toList = letter :: digits
  digits_ne_nil : digits ≠ []
  isLetter : Text.isLetter letter = true
  all_isDigit : ∀ digit ∈ digits, Text.isDigit digit = true

/-- The action that a text stands for: the pile of the letter and the number of the digits. -/
def Denotes (text : String) (action : Action) : Prop :=
  ∃ letter digits number, HasForm text letter digits ∧ Numeral.Spells digits number ∧
    action = ⟨(letter.toNat : Int) - 97, number⟩

/-- A text that has the form of an action and cannot be read: it has too many digits, or one without
a place value. -/
def Trips (text : String) : Prop :=
  ∃ letter digits, HasForm text letter digits ∧
    (Numeral.digitLimit < digits.length ∨ ∃ digit ∈ digits, Text.digitValue? digit = none)

theorem ofTyped_of_form (form : HasForm text letter digits) :
    Action.ofTyped text =
      (Numeral.ofDigits digits).map fun number => some ⟨(letter.toNat : Int) - 97, number⟩ := by
  have all_digits : digits.all Text.isDigit = true := List.all_eq_true.mpr form.all_isDigit
  rcases List.exists_cons_of_ne_nil form.digits_ne_nil with ⟨first, others, rfl⟩
  simp only [Action.ofTyped, form.toList_eq, form.isLetter, all_digits, Bool.and_self, if_true]
  cases Numeral.ofDigits (first :: others) <;> rfl

theorem ofTyped_of_no_form (formless : ∀ letter digits, ¬HasForm text letter digits) :
    Action.ofTyped text = .ok none := by
  unfold Action.ofTyped
  split
  · rfl
  · rfl
  · rename_i letter digits no_single toList_eq
    split
    · rename_i formed
      rw [Bool.and_eq_true, List.all_eq_true] at formed
      refine absurd ⟨toList_eq, ?_, formed.1, formed.2⟩ (formless letter digits)
      rintro rfl
      exact no_single rfl
    · rfl

theorem ofTyped_of_denotes (denotes : Denotes text action) :
    Action.ofTyped text = .ok (some action) := by
  rcases denotes with ⟨letter, digits, number, form, spells, rfl⟩
  rw [ofTyped_of_form form, Numeral.ofDigits_of_spells spells]
  rfl

theorem ofTyped_of_trips (trips : Trips text) : ∃ letter digits fault,
    HasForm text letter digits ∧ Numeral.Refuses digits fault ∧
      Action.ofTyped text = .error fault := by
  rcases trips with ⟨letter, digits, form, unreadable⟩
  have wrong : ∀ number, ¬Numeral.Spells digits number := by
    intro number spells
    rcases Numeral.exists_spells_iff.mp ⟨number, spells⟩ with ⟨short, positional⟩
    rcases unreadable with long | ⟨digit, mem, loose⟩
    · exact Nat.not_lt.mpr short long
    · simpa [loose] using positional digit mem
  rcases Numeral.ofDigits_of_not_spells wrong with ⟨fault, refused, refuses⟩
  refine ⟨letter, digits, fault, form, refuses, ?_⟩
  rw [ofTyped_of_form form, refused]
  rfl

theorem ofTyped_of_neither (readable : ¬Trips text) (meaningless : ∀ action, ¬Denotes text action) :
    Action.ofTyped text = .ok none := by
  refine ofTyped_of_no_form fun letter digits form => ?_
  by_cases spelled : ∃ number, Numeral.Spells digits number
  · rcases spelled with ⟨number, spells⟩
    exact meaningless _ ⟨letter, digits, number, form, spells, rfl⟩
  · refine readable ⟨letter, digits, form, ?_⟩
    rw [Numeral.exists_spells_iff, not_and_or] at spelled
    simpa using spelled

/-- What a text is read as is what it denotes. -/
theorem ofTyped_eq_some_iff : Action.ofTyped text = .ok (some action) ↔ Denotes text action := by
  refine ⟨fun typed => ?_, ofTyped_of_denotes⟩
  by_cases trips : Trips text
  · rcases ofTyped_of_trips trips with ⟨-, -, fault, -, -, refused⟩
    simp [refused] at typed
  by_cases denoted : ∃ action, Denotes text action
  · rcases denoted with ⟨other, denotes⟩
    rw [ofTyped_of_denotes denotes, Except.ok.injEq, Option.some.injEq] at typed
    exact typed ▸ denotes
  · simp [ofTyped_of_neither trips (not_exists.mp denoted)] at typed

theorem ofTyped_isError_iff : (∃ fault, Action.ofTyped text = .error fault) ↔ Trips text := by
  constructor
  · rintro ⟨fault, refused⟩
    by_contra readable
    by_cases denoted : ∃ action, Denotes text action
    · rcases denoted with ⟨action, denotes⟩
      simp [ofTyped_of_denotes denotes] at refused
    · simp [ofTyped_of_neither readable (not_exists.mp denoted)] at refused
  · intro trips
    rcases ofTyped_of_trips trips with ⟨-, -, fault, -, -, refused⟩
    exact ⟨fault, refused⟩

/-- A line that can be read and denotes no legal action. -/
def Skips (position : Position) (line : String) : Prop :=
  ¬Trips (tidy line) ∧ ∀ action ∈ game.legal position position.turn, ¬Denotes (tidy line) action

theorem skips_iff : Skips position line ↔ ∃ typed, Action.ofTyped (tidy line) = .ok typed ∧
    ∀ action, typed = some action → action ∉ game.legal position position.turn := by
  constructor
  · rintro ⟨readable, illegal⟩
    by_cases denoted : ∃ action, Denotes (tidy line) action
    · rcases denoted with ⟨action, denotes⟩
      refine ⟨some action, ofTyped_of_denotes denotes, ?_⟩
      rintro _ ⟨⟩ legal
      exact illegal action legal denotes
    · exact ⟨none, ofTyped_of_neither readable (not_exists.mp denoted), by simp⟩
  · rintro ⟨typed, typed_eq, illegal⟩
    refine ⟨fun trips => ?_, fun action legal denotes => ?_⟩
    · rcases ofTyped_of_trips trips with ⟨-, -, fault, -, -, refused⟩
      simp [refused] at typed_eq
    · rw [ofTyped_of_denotes denotes, Except.ok.injEq] at typed_eq
      exact illegal action typed_eq.symm legal

theorem play_isOk_iff :
    (position.play position.turn action).isOk = true ↔
      action ∈ game.legal position position.turn := by
  rw [← game.play_isOk]
  change _ ↔ ∃ next, position.move position.turn action = .ok next
  simp only [Position.move_eq_ok]
  cases position.play position.turn action <;> simp [Except.isOk, Except.toBool]

/-- What has been shown once a line is turned down. -/
def turnDown (position : Position) (shown line : String) : String :=
  shown ++ question position ++ "Illegal move " ++ Text.quoted (tidy line) ++ "\n"

theorem ask_of_denotes (denotes : Denotes (tidy line) action)
    (legal : action ∈ game.legal position position.turn) :
    ask position (line :: lines) shown = (.ok action, ⟨lines, shown ++ question position⟩) := by
  rw [ask, ofTyped_of_denotes denotes]
  simp only [Option.filter_some, play_isOk_iff.mpr legal, if_true]

theorem ask_of_skips (skips : Skips position line) :
    ask position (line :: lines) shown = ask position lines (turnDown position shown line) := by
  rcases skips_iff.mp skips with ⟨typed, typed_eq, illegal⟩
  have none_left :
      typed.filter (fun action => (position.play position.turn action).isOk) = none := by
    rw [Option.filter_eq_none_iff]
    intro action mem
    rw [play_isOk_iff]
    exact illegal action mem
  rw [ask, typed_eq]
  simp only [none_left]
  rfl

theorem ask_append (skips : ∀ line ∈ skipped, Skips position line) :
    ask position (skipped ++ lines) shown =
      ask position lines (skipped.foldl (turnDown position) shown) := by
  induction skipped generalizing shown with
  | nil => rfl
  | cons line skipped ih =>
      rw [List.cons_append, ask_of_skips (skips line (by simp)),
        ih fun later mem => skips later (by simp [mem]), List.foldl_cons]

/-- How many piles have letters before the code points that are no characters. -/
def letteredPiles : Nat := 55199

theorem pileLetter_eq_ok {pile : Nat} (low : pile < letteredPiles) :
    pileLetter pile = .ok (Char.ofNat (97 + pile)) := by
  have code_eq : (97 + (pile : Int)).toNat = 97 + pile := by omega
  have valid : (97 + pile).isValidChar := .inl (by simp only [letteredPiles] at low; omega)
  simp only [pileLetter, code_eq]
  exact if_pos ⟨by omega, valid⟩

theorem pileLetter_letteredPiles : pileLetter letteredPiles = .error .noPileLetter := by
  have code_eq : (97 + (letteredPiles : Int)).toNat = 0xD800 := rfl
  simp only [pileLetter, code_eq]
  rfl

theorem exists_pileTexts_iff {first : Nat} {sizes : List Nat} (low : first ≤ letteredPiles) :
    (∃ texts, Position.pileTexts first sizes = .ok texts) ↔
      first + sizes.length ≤ letteredPiles ∧ ∀ size ∈ sizes, Numeral.Writable size := by
  induction sizes generalizing first with
  | nil =>
    have texts_eq : Position.pileTexts first [] = .ok [] := rfl
    simp [texts_eq, low]
  | cons size sizes ih =>
    rw [List.length_cons, List.forall_mem_cons, Position.pileTexts]
    rcases Nat.lt_or_eq_of_le low with lettered | rfl
    · rw [pileLetter_eq_ok lettered]
      by_cases writable : Numeral.Writable size
      · have others := ih (Nat.succ_le_of_lt lettered)
        rw [Numeral.written_of_writable writable]
        rw [Nat.succ_add_eq_add_succ] at others
        simp only [writable, true_and, ← others]
        cases Position.pileTexts (first + 1) sizes <;> simp [bind, Except.bind, pure, Except.pure]
      · rw [Numeral.written_of_not_writable writable]
        simp [bind, Except.bind, writable]
    · rw [pileLetter_letteredPiles]
      simp [bind, Except.bind]

/-- The piles of a position have letters and sizes that are not too long to be written. -/
structure Position.Showable (position : Position) : Prop where
  lettered : position.piles.length ≤ letteredPiles
  writable : ∀ size ∈ position.piles, Numeral.Writable size

/-- The positions that can be shown. -/
theorem exists_board_iff : (∃ board, position.board = .ok board) ↔ position.Showable := by
  have texts : (∃ texts, Position.pileTexts 0 position.piles = .ok texts) ↔
      0 + position.piles.length ≤ letteredPiles ∧ ∀ size ∈ position.piles, Numeral.Writable size :=
    exists_pileTexts_iff (Nat.zero_le letteredPiles)
  rw [Nat.zero_add] at texts
  rw [Position.board]
  constructor
  · rintro ⟨board, drawn⟩
    cases texts_eq : Position.pileTexts 0 position.piles with
    | error fault => simp [texts_eq, bind, Except.bind] at drawn
    | ok shown =>
      rcases texts.mp ⟨shown, texts_eq⟩ with ⟨lettered, writable⟩
      exact ⟨lettered, writable⟩
  · rintro ⟨lettered, writable⟩
    rcases texts.mpr ⟨lettered, writable⟩ with ⟨shown, texts_eq⟩
    rw [texts_eq]
    exact ⟨_, rfl⟩

theorem askHuman_eq_ask {board : String} (drawn : position.board = .ok board)
    (dialogue : Dialogue) :
    askHuman position dialogue =
      ask position dialogue.lines (dialogue.shown ++ board ++ "\n") := by
  rw [askHuman, drawn]

/-- Reading a text gives the action that it denotes or none, and is a fault just for a text that has
the form of an action without writing one. So a human who is shown a board is asked until a line
denotes a legal action, if no line before is such a text. -/
theorem askHuman_answers (position : Position) (dialogue : Dialogue) :
    (∀ text,
      (∀ action, Action.ofTyped text = .ok (some action) ↔ Denotes text action) ∧
      ((∃ fault, Action.ofTyped text = .error fault) ↔ Trips text)) ∧
    (position.Showable → ∃ board, position.board = .ok board ∧
      ∀ skipped rest, dialogue.lines = skipped ++ rest →
        (∀ line ∈ skipped, Skips position line) →
        let shown := skipped.foldl (turnDown position) (dialogue.shown ++ board ++ "\n") ++
          question position
        match rest with
        | [] => askHuman position dialogue = (.error .endOfInput, ⟨[], shown⟩)
        | line :: lines =>
          (∀ action ∈ game.legal position position.turn, Denotes (tidy line) action →
            askHuman position dialogue = (.ok action, ⟨lines, shown⟩)) ∧
          (Trips (tidy line) → ∃ letter digits fault,
            HasForm (tidy line) letter digits ∧ Numeral.Refuses digits fault ∧
              askHuman position dialogue = (.error fault, ⟨lines, shown⟩))) := by
  refine ⟨fun text => ⟨fun action => ofTyped_eq_some_iff, ofTyped_isError_iff⟩, ?_⟩
  intro showable
  rcases exists_board_iff.mpr showable with ⟨board, drawn⟩
  refine ⟨board, drawn, ?_⟩
  intro skipped rest lines_eq skips
  rw [askHuman_eq_ask drawn, lines_eq, ask_append skips]
  cases rest with
  | nil => rfl
  | cons line lines =>
      refine ⟨fun action legal denotes => ask_of_denotes denotes legal, ?_⟩
      intro trips
      rcases ofTyped_of_trips trips with ⟨letter, digits, fault, form, refuses, refused⟩
      refine ⟨letter, digits, fault, form, refuses, ?_⟩
      rw [ask, refused]

/-- With piles of three and five, a line without an action and one that takes too much are passed
over, and the third line is the answer; the fourth is left for later. -/
theorem askHuman_answers_third :
    let start : Position := ⟨[3, 5], .one, none, false, by simp, by simp⟩
    ∃ shown, askHuman start ⟨["take one", "b6", " B3 ", "a1"], ""⟩ =
      (.ok ⟨1, 3⟩, ⟨["a1"], shown⟩) := by
  intro start
  rcases askHuman_answers start ⟨["take one", "b6", " B3 ", "a1"], ""⟩ with ⟨-, answers⟩
  have writable : ∀ size ∈ start.piles, Numeral.Writable size := by
    rw [List.forall_mem_cons, List.forall_mem_singleton]
    exact ⟨Numeral.length_toString_le_iff.mp (by decide),
      Numeral.length_toString_le_iff.mp (by decide)⟩
  rcases answers ⟨by decide, writable⟩ with ⟨board, -, answers⟩
  have skips : ∀ line ∈ ["take one", "b6"], Skips start line := by
    intro line mem
    simp only [List.mem_cons, List.not_mem_nil, or_false] at mem
    rcases mem with rfl | rfl
    · exact skips_iff.mpr ⟨none, rfl, by simp⟩
    · refine skips_iff.mpr ⟨some ⟨1, 6⟩, rfl, ?_⟩
      rintro _ ⟨⟩
      rw [← play_isOk_iff]
      exact Bool.false_ne_true
  have legal : ⟨1, 3⟩ ∈ game.legal start start.turn := play_isOk_iff.mp rfl
  rcases answers ["take one", "b6"] [" B3 ", "a1"] rfl skips with ⟨answered, -⟩
  exact ⟨_, answered ⟨1, 3⟩ legal (ofTyped_eq_some_iff.mp rfl)⟩

/-- A superscript two is a digit and no number: it ends the dialogue, with a legal action on the next
line. -/
theorem askHuman_superscript :
    (¬∀ text, ∃ typed, Action.ofTyped text = .ok typed) ∧
    ¬∀ (position : Position) (dialogue : Dialogue) (fault : Fault), position.isOver = false →
      (askHuman position dialogue).1 = .error fault → fault = .endOfInput := by
  refine ⟨fun claimed => ?_, fun claimed => ?_⟩
  · rcases claimed "a²" with ⟨typed, typed_eq⟩
    cases typed_eq
  · let start : Position := ⟨[3], .one, none, false, by simp, by simp⟩
    have refused : (askHuman start ⟨["a²", "a1"], ""⟩).1 = .error (.notAnInteger "²") := by
      dsimp only [start]
      rfl
    cases claimed start _ _ rfl refused

end GameSearch.Nim
