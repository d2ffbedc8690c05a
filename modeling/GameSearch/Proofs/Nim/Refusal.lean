import GameSearch.Proofs.Decimal.Written
import GameSearch.Nim.Position

/-!
# Reports of refused actions

An action that cannot be played is refused by the first rule that it breaks: the game is over, it is
somebody else's turn, there is no such pile, or the amount is none that may be taken. The refusal is
reported as an illegal action, in words.

Some words may be missing. Two of the refusals name the action and with it the letter of its pile,
one of them before anybody has asked whether the pile exists, and not every pile has a letter. Nor are
integers of too many digits written. Such a refusal is reported as the fault of its wording.
-/

namespace GameSearch.Nim

variable {α β : Type} {result : Except Fault α} {possible : Prop}

/-- The faults of wording: a pile has no letter, or an integer is too long. -/
inductive Wordless : Fault → Prop where
  | noPileLetter : Wordless .noPileLetter
  | pileOutOfRange : Wordless .pileOutOfRange
  | unwrittenInteger : Wordless .unwrittenInteger

/-- The words are there exactly under a condition; what fails otherwise is the wording. -/
structure Words (result : Except Fault α) (possible : Prop) : Prop where
  exists_words : possible → ∃ words, result = .ok words
  exists_fault : ¬possible → ∃ fault, result = .error fault ∧ Wordless fault

namespace Words

theorem bind {next : α → Except Fault β} {alsoPossible : Prop} (worded : Words result possible)
    (nextWorded : ∀ words, Words (next words) alsoPossible) :
    Words (result >>= next) (possible ∧ alsoPossible) := by
  by_cases able : possible
  · rcases worded.exists_words able with ⟨words, words_eq⟩
    rw [words_eq]
    constructor
    · rintro ⟨-, also⟩
      exact (nextWorded words).exists_words also
    · intro neither
      exact (nextWorded words).exists_fault fun also => neither ⟨able, also⟩
  · rcases worded.exists_fault able with ⟨fault, fault_eq, wordless⟩
    rw [fault_eq]
    constructor
    · rintro ⟨held, -⟩
      exact absurd held able
    · exact fun _ => ⟨fault, rfl, wordless⟩

theorem phrase {phrasing : α → β} (worded : Words result possible) :
    Words (result >>= fun words => pure (phrasing words)) possible := by
  constructor
  · intro able
    rcases worded.exists_words able with ⟨words, words_eq⟩
    exact ⟨phrasing words, by rw [words_eq]; rfl⟩
  · intro unable
    rcases worded.exists_fault unable with ⟨fault, fault_eq, wordless⟩
    exact ⟨fault, by rw [fault_eq]; rfl, wordless⟩

end Words

theorem words_written (number : Int) : Words (Numeral.written number) (Numeral.Writable number) where
  exists_words writable := ⟨_, Numeral.written_of_writable writable⟩
  exists_fault long := ⟨_, Numeral.written_of_not_writable long, .unwrittenInteger⟩

/-- The piles that have a letter in a message: as many as there are code points from the small a on,
and those before it. -/
def HasMark (pile : Int) : Prop := -97 ≤ pile ∧ pile < 0x110000 - 97

theorem wordless_unlettered (code : Int) : Wordless (unlettered code) := by
  unfold unlettered
  split
  · exact .noPileLetter
  · exact .pileOutOfRange

theorem words_pileMark (pile : Int) : Words (pileMark pile) (HasMark pile) := by
  have inside_iff : (0 ≤ 97 + pile ∧ 97 + pile < 0x110000) ↔ HasMark pile := by
    unfold HasMark
    omega
  constructor
  · intro marked
    exact ⟨_, if_pos (inside_iff.mpr marked)⟩
  · intro unmarked
    exact ⟨_, if_neg (mt inside_iff.mp unmarked), wordless_unlettered _⟩

/-- An action that can be put in words. -/
def Action.Describable (action : Action) : Prop :=
  Numeral.Writable action.amount ∧ HasMark action.pile

theorem words_describe (action : Action) : Words action.describe action.Describable :=
  (words_written action.amount).bind fun _ => (words_pileMark action.pile).phrase

namespace Refusal

/-- A refusal whose wording is there. -/
def Wordable : Refusal → Prop
  | gameOver action => action.Describable
  | notYourTurn _ _ => True
  | noSuchPile pile count => Numeral.Writable pile ∧ Numeral.Writable count
  | badAmount action size most =>
      action.Describable ∧ Numeral.Writable size ∧ Numeral.Writable most

theorem words_account (refusal : Refusal) : Words refusal.account refusal.Wordable := by
  cases refusal with
  | gameOver action => exact (words_describe action).phrase
  | notYourTurn player expected => exact ⟨fun _ => ⟨_, rfl⟩, fun unable => absurd trivial unable⟩
  | noSuchPile pile count => exact (words_written pile).bind fun _ => (words_written count).phrase
  | badAmount action size most =>
      exact (words_describe action).bind fun _ =>
        (words_written size).bind fun _ => (words_written most).phrase

theorem fault_of_wordable {refusal : Refusal} (wordable : refusal.Wordable) :
    ∃ account, refusal.account = .ok account ∧ refusal.fault = .illegalAction account := by
  rcases refusal.words_account.exists_words wordable with ⟨account, account_eq⟩
  refine ⟨account, account_eq, ?_⟩
  rw [fault, account_eq]
  rfl

theorem wordless_fault {refusal : Refusal} (unable : ¬refusal.Wordable) :
    Wordless refusal.fault := by
  rcases refusal.words_account.exists_fault unable with ⟨fault, fault_eq, wordless⟩
  rw [Refusal.fault, fault_eq]
  exact wordless

end Refusal

namespace Position

variable {position : Position} {player : Player} {action : Action} {refusal : Refusal}
  {fault : Fault}

/-- Why an action cannot be played: the first rule that it breaks. -/
inductive Refuses (position : Position) (player : Player) (action : Action) : Refusal → Prop where
  | gameOver (ended : position.isOver = true) : Refuses position player action (.gameOver action)
  | notYourTurn (running : position.isOver = false) (idle : player ≠ position.turn) :
      Refuses position player action (.notYourTurn player position.turn)
  | noSuchPile (running : position.isOver = false) (mover : player = position.turn)
      (missing : ∀ pile : Nat, action.pile = pile → position.piles.length ≤ pile) :
      Refuses position player action (.noSuchPile action.pile position.piles.length)
  | badAmount {pile size : Nat} (running : position.isOver = false) (mover : player = position.turn)
      (pile_eq : action.pile = pile) (at_pile : position.piles[pile]? = some size)
      (bad : ¬(1 ≤ action.amount ∧ action.amount ≤ position.most size)) :
      Refuses position player action (.badAmount action size (position.most size))

theorem refuses_of_play (refused : position.play player action = .error refusal) :
    position.Refuses player action refusal := by
  unfold play at refused
  split at refused
  · rename_i ended
    cases refused
    exact .gameOver ended
  rename_i running
  rw [Bool.not_eq_true] at running
  split at refused
  · rename_i idle
    cases refused
    exact .notYourTurn running idle
  rename_i mover
  rw [not_ne_iff] at mover
  split at refused
  · rename_i before pile_eq
    cases refused
    refine .noSuchPile running mover fun pile named => ?_
    rw [pile_eq] at named
    cases named
  rename_i pile pile_eq
  split at refused
  · rename_i beyond
    cases refused
    refine .noSuchPile running mover fun other named => ?_
    obtain rfl : pile = other := Int.ofNat.inj (pile_eq.symm.trans named)
    exact List.getElem?_eq_none_iff.mp beyond
  rename_i size at_pile
  split at refused
  · cases refused
  · rename_i bad
    cases refused
    exact .badAmount running mover pile_eq at_pile bad

/-- An action that is not played is refused by the first rule that it breaks. It is reported as an
illegal action, in the words of the refusal, exactly if these can be found; the only other reports are
the faults of their wording. -/
theorem play_reports (refused : game.play position player action = .error fault) :
    ∃ refusal, position.Refuses player action refusal ∧
      ((∃ account, fault = .illegalAction account) ↔ refusal.Wordable) ∧
      (refusal.Wordable →
        ∃ account, refusal.account = .ok account ∧ fault = .illegalAction account) ∧
      (¬refusal.Wordable → Wordless fault) := by
  change position.move player action = .error fault at refused
  unfold move at refused
  split at refused
  · cases refused
  rename_i refusal played
  cases refused
  refine ⟨refusal, refuses_of_play played, ⟨?_, ?_⟩, Refusal.fault_of_wordable,
    Refusal.wordless_fault⟩
  · rintro ⟨account, fault_eq⟩
    by_contra unable
    have wordless := Refusal.wordless_fault unable
    rw [fault_eq] at wordless
    cases wordless
  · intro wordable
    rcases Refusal.fault_of_wordable wordable with ⟨account, -, fault_eq⟩
    exact ⟨account, fault_eq⟩

/-- While a game is running, a pile that is not there is reported by its number, whether or not this
has a letter. -/
theorem play_reports_missing :
    let start : Position := ⟨[3, 5], .one, none, false, by simp, by simp⟩
    game.play start .one ⟨2000000, 1⟩ = .error (.illegalAction "No pile 2000000 (have 2)") ∧
      ∃ refusal, start.Refuses .one ⟨2000000, 1⟩ refusal ∧ refusal.Wordable := by
  intro start
  have refused :
      game.play start .one ⟨2000000, 1⟩ = .error (.illegalAction "No pile 2000000 (have 2)") := by
    dsimp only [start]
    rfl
  rcases play_reports refused with ⟨refusal, refuses, reported_iff, -⟩
  exact ⟨refused, refusal, refuses, reported_iff.mp ⟨_, rfl⟩⟩

/-- In a finished game the action is named before anything else is asked, and a pile so far before the
first one has no letter. -/
theorem play_unmarked :
    ¬∀ (position : Position) (player : Player) (action : Action) (fault : Fault),
      game.play position player action = .error fault →
        ∃ account, fault = .illegalAction account := by
  intro claimed
  let ended : Position := ⟨[0], .one, none, false, by simp, by simp⟩
  have refused : game.play ended .one ⟨-98, 1⟩ = .error .noPileLetter := by
    dsimp only [ended]
    rfl
  rcases claimed ended .one ⟨-98, 1⟩ _ refused with ⟨account, fault_eq⟩
  cases fault_eq

end Position

end GameSearch.Nim
