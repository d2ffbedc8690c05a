import GameSearch.Proofs.Search.Best
import GameSearch.Search.AlphaBeta

/-!
# Windows

A search inside a window need not be exact. If the exact score lies strictly inside the window, the
search finds it together with its action; if it lies at or past an end of the window, the search
finds a bound between that end and the exact score. `Window.Approximates` is this law.

The bounds of the moves that a mover has looked at so far are carried by `Window.Follows`, the
invariant of the enumeration of moves. It is stated on the line of the mover, whose own end of the
window is the near one.
-/

namespace GameSearch

variable {Action : Type} {aim : Aim}

namespace Window

variable {window now : Window} {score : Number}

/-- The end of the window that a mover pushes ahead. -/
def near (window : Window) : Aim → Number
  | .greatest => window.alpha
  | .least => window.beta

/-- The end of the window at which a mover stops. -/
def far (window : Window) : Aim → Number
  | .greatest => window.beta
  | .least => window.alpha

@[simp]
theorem near_opposite : window.near aim.opposite = window.far aim := by
  cases aim <;> rfl

theorem near_full : full.near aim = aim.baseline := by
  cases aim <;> rfl

theorem isClosed_eq (aim : Aim) :
    window.isClosed = (aim.prefers (window.near aim) (window.far aim) ||
      (window.near aim).same (window.far aim)) := by
  cases aim with
  | greatest =>
      rw [Number.same_comm]
      rfl
  | least => rfl

/-- Whether a score fits strictly between the ends. -/
def IsOpen (window : Window) : Prop := window.alpha.less window.beta = true

theorem isOpen_full : full.IsOpen := by
  unfold IsOpen
  decide

theorem IsOpen.isDefined_near (isOpen : window.IsOpen) (aim : Aim) :
    (window.near aim).IsDefined := by
  cases aim with
  | greatest => exact (Number.isDefined_of_less isOpen).1
  | least => exact (Number.isDefined_of_less isOpen).2

theorem IsOpen.isDefined_far (isOpen : window.IsOpen) (aim : Aim) :
    (window.far aim).IsDefined := by
  cases aim with
  | greatest => exact (Number.isDefined_of_less isOpen).2
  | least => exact (Number.isDefined_of_less isOpen).1

theorem isOpen_iff (nearDefined : (window.near aim).IsDefined)
    (farDefined : (window.far aim).IsDefined) :
    window.IsOpen ↔ aim.rank (window.near aim) < aim.rank (window.far aim) := by
  cases aim with
  | greatest => exact Number.less_iff nearDefined farDefined
  | least => exact (Number.less_iff farDefined nearDefined).trans EReal.neg_lt_neg_iff.symm

theorem isClosed_iff (nearDefined : (window.near aim).IsDefined)
    (farDefined : (window.far aim).IsDefined) :
    window.isClosed = true ↔ aim.rank (window.far aim) ≤ aim.rank (window.near aim) := by
  cases aim with
  | greatest => exact Number.atMost_iff farDefined nearDefined
  | least => exact (Number.atMost_iff nearDefined farDefined).trans EReal.neg_le_neg_iff.symm

@[simp]
theorem far_narrow : (window.narrow score aim).far aim = window.far aim := by
  cases aim <;> rfl

theorem near_narrow :
    (window.narrow score aim).near aim =
      if aim.prefers score (window.near aim) then score else window.near aim := by
  cases aim <;> rfl

theorem isDefined_near_narrow (nearDefined : (window.near aim).IsDefined)
    (scoreDefined : score.IsDefined) : ((window.narrow score aim).near aim).IsDefined := by
  rw [near_narrow]
  split <;> assumption

theorem rank_near_narrow (nearDefined : (window.near aim).IsDefined)
    (scoreDefined : score.IsDefined) :
    aim.rank ((window.narrow score aim).near aim) =
      max (aim.rank (window.near aim)) (aim.rank score) := by
  rw [near_narrow]
  split
  · rename_i better
    rw [Aim.prefers_iff scoreDefined nearDefined] at better
    rw [max_eq_right better.le]
  · rename_i worse
    rw [Aim.prefers_iff scoreDefined nearDefined, not_lt] at worse
    rw [max_eq_left worse]

@[simp]
theorem rank_far_full : aim.rank (full.far aim) = ⊤ := by
  cases aim <;> simp [full, far, Aim.rank]

/-- The law of a search inside a window. -/
structure Approximates (window : Window) (exact found : Tracker Action) : Prop where
  /-- Too low a score may be found as any bound up to the lower end. -/
  low : exact.score.place ≤ window.alpha.place →
    exact.score.place ≤ found.score.place ∧ found.score.place ≤ window.alpha.place
  /-- Too high a score may be found as any bound down to the upper end. -/
  high : window.beta.place ≤ exact.score.place →
    window.beta.place ≤ found.score.place ∧ found.score.place ≤ exact.score.place
  inside : window.alpha.place < exact.score.place → exact.score.place < window.beta.place →
    found = exact

theorem Approximates.refl (window : Window) (exact : Tracker Action) :
    window.Approximates exact exact :=
  ⟨fun low => ⟨le_rfl, low⟩, fun high => ⟨high, le_rfl⟩, fun _ _ => rfl⟩

/-- The law looks the same on the line of either mover. -/
theorem approximates_iff {exact found : Tracker Action} (aim : Aim) :
    window.Approximates exact found ↔
      (aim.rank exact.score ≤ aim.rank (window.near aim) →
        aim.rank exact.score ≤ aim.rank found.score ∧
          aim.rank found.score ≤ aim.rank (window.near aim)) ∧
      (aim.rank (window.far aim) ≤ aim.rank exact.score →
        aim.rank (window.far aim) ≤ aim.rank found.score ∧
          aim.rank found.score ≤ aim.rank exact.score) ∧
      (aim.rank (window.near aim) < aim.rank exact.score →
        aim.rank exact.score < aim.rank (window.far aim) → found = exact) := by
  cases aim with
  | greatest =>
      exact ⟨fun law => ⟨law.low, law.high, law.inside⟩, fun law => ⟨law.1, law.2.1, law.2.2⟩⟩
  | least =>
      simp only [Aim.rank, near, far, EReal.neg_le_neg_iff, EReal.neg_lt_neg_iff]
      constructor
      · rintro ⟨low, high, inside⟩
        exact ⟨fun past => (high past).symm, fun past => (low past).symm,
          fun below above => inside above below⟩
      · rintro ⟨high, low, inside⟩
        exact ⟨fun past => (low past).symm, fun past => (high past).symm,
          fun above below => inside below above⟩

/-- What relates the exact best of the moves looked at so far to the best found among them, and to
the window as it is now. -/
structure Follows (window : Window) (aim : Aim) (exact found : Tracker Action) (now : Window) :
    Prop where
  sawExact : exact.SawIntegers aim
  sawFound : found.SawIntegers aim
  hasAction_eq : found.hasAction = exact.hasAction
  isOpen : now.IsOpen
  far_eq : now.far aim = window.far aim
  near_eq : aim.rank (now.near aim) = max (aim.rank (window.near aim)) (aim.rank found.score)
  low : aim.rank exact.score ≤ aim.rank (window.near aim) →
    aim.rank exact.score ≤ aim.rank found.score ∧
      aim.rank found.score ≤ aim.rank (window.near aim)
  inside : aim.rank (window.near aim) < aim.rank exact.score → found = exact
  before_far : aim.rank exact.score < aim.rank (window.far aim)

theorem follows_start (isOpen : window.IsOpen) (aim : Aim) :
    window.Follows aim (.start aim.baseline : Tracker Action) (.start aim.baseline) window where
  sawExact := .inl rfl
  sawFound := .inl rfl
  hasAction_eq := rfl
  isOpen := isOpen
  far_eq := rfl
  near_eq := by simp [Tracker.start]
  low := fun low => ⟨le_rfl, low⟩
  inside := fun _ => rfl
  before_far := by
    have less := (isOpen_iff (isOpen.isDefined_near aim) (isOpen.isDefined_far aim)).mp isOpen
    exact (Aim.rank_baseline.trans_le bot_le).trans_lt less

theorem Follows.approximates {exact found : Tracker Action}
    (follows : window.Follows aim exact found now) : window.Approximates exact found := by
  rw [approximates_iff aim]
  exact ⟨follows.low, fun past => absurd follows.before_far (not_lt.mpr past),
    fun past _ => follows.inside past⟩

/-- The whole line has room for every integer. -/
theorem Approximates.eq_of_full {exact found : Tracker Action}
    (approximates : full.Approximates exact found) (integer : exact.score.IsInteger) :
    found = exact := by
  apply approximates.inside
  · exact Number.place_below.trans_lt integer.bot_lt_place
  · exact integer.place_lt_top.trans_eq Number.place_above.symm

/-- Inside the whole line the best found so far is always the exact best. -/
theorem Follows.eq_of_full {exact found : Tracker Action}
    (follows : full.Follows aim exact found now) : found = exact := by
  rcases follows.sawExact with fresh | ⟨value, action, holds⟩
  · have none := follows.hasAction_eq
    rcases follows.sawFound with started | found_holds
    · rw [started, fresh]
    · rw [found_holds.hasAction, fresh] at none
      cases none
  · exact follows.approximates.eq_of_full ⟨value, by rw [holds]⟩

/-- Inside the whole line no integer closes the window. -/
theorem Follows.isClosed_narrow_of_full {exact found : Tracker Action}
    (follows : full.Follows aim exact found now) (integer : score.IsInteger) :
    (now.narrow score aim).isClosed = false := by
  have nearDefined := follows.isOpen.isDefined_near aim
  have farDefined := follows.isOpen.isDefined_far aim
  have less := (isOpen_iff nearDefined farDefined).mp follows.isOpen
  rw [← Bool.not_eq_true, isClosed_iff (isDefined_near_narrow nearDefined integer.isDefined)
    (by rwa [far_narrow]), far_narrow, rank_near_narrow nearDefined integer.isDefined, not_le]
  apply max_lt less
  rw [follows.far_eq, rank_far_full]
  exact Aim.rank_lt_top_of_isInteger aim integer

section Child

variable {exact found exactChild foundChild : Tracker Action}

/-- What a mover learns from a child that was searched inside the window as it is now. -/
theorem Follows.child_approximates (follows : window.Follows aim exact found now)
    (child : now.Approximates exactChild foundChild) :
    (aim.rank exactChild.score ≤ aim.rank (now.near aim) →
      aim.rank exactChild.score ≤ aim.rank foundChild.score ∧
        aim.rank foundChild.score ≤ aim.rank (now.near aim)) ∧
    (aim.rank (window.far aim) ≤ aim.rank exactChild.score →
      aim.rank (window.far aim) ≤ aim.rank foundChild.score ∧
        aim.rank foundChild.score ≤ aim.rank exactChild.score) ∧
    (aim.rank (now.near aim) < aim.rank exactChild.score →
      aim.rank exactChild.score < aim.rank (window.far aim) →
        foundChild.score = exactChild.score) := by
  have law := (approximates_iff aim).mp child
  rw [follows.far_eq] at law
  exact ⟨law.1, law.2.1, fun above below => congrArg Tracker.score (law.2.2 above below)⟩

/-- A child that closes the window decides the search, whatever the moves that are left would have
brought. -/
theorem Follows.approximates_of_closed {final : Tracker Action} {action : Action}
    (follows : window.Follows aim exact found now)
    (child : now.Approximates exactChild foundChild)
    (exactInteger : exactChild.score.IsInteger) (foundInteger : foundChild.score.IsInteger)
    (closed : (now.narrow foundChild.score aim).isClosed = true)
    (improved : aim.rank (exact.insert aim action exactChild.score).score ≤
      aim.rank final.score) :
    window.Approximates final (found.insert aim action foundChild.score) := by
  rcases follows.child_approximates child with ⟨childLow, childHigh, childInside⟩
  have nearDefined := follows.isOpen.isDefined_near aim
  have farDefined := follows.isOpen.isDefined_far aim
  have open_now := (isOpen_iff nearDefined farDefined).mp follows.isOpen
  rw [follows.far_eq] at open_now
  have reached : aim.rank (window.far aim) ≤ aim.rank foundChild.score := by
    rw [isClosed_iff (isDefined_near_narrow nearDefined foundInteger.isDefined)
      (by rwa [far_narrow]), far_narrow, follows.far_eq,
      rank_near_narrow nearDefined foundInteger.isDefined] at closed
    exact (le_max_iff.mp closed).resolve_left (not_le.mpr open_now)
  -- Below the far end the child would have been found short of it.
  have past : aim.rank (window.far aim) ≤ aim.rank exactChild.score := by
    by_contra short
    rw [not_le] at short
    rcases le_or_gt (aim.rank exactChild.score) (aim.rank (now.near aim)) with low | above
    · exact absurd (reached.trans (childLow low).2) (not_le.mpr open_now)
    · rw [childInside above short] at reached
      exact absurd reached (not_le.mpr short)
  rw [Tracker.rank_insert aim action follows.sawExact.isDefined exactInteger.isDefined] at improved
  have beyond : aim.rank (window.far aim) ≤ aim.rank final.score :=
    past.trans ((le_max_right _ _).trans improved)
  have found_le : aim.rank found.score ≤ aim.rank (now.near aim) := by
    rw [follows.near_eq]
    exact le_max_right _ _
  have found_eq : aim.rank (found.insert aim action foundChild.score).score =
      aim.rank foundChild.score := by
    rw [Tracker.rank_insert aim action follows.sawFound.isDefined foundInteger.isDefined]
    exact max_eq_right (found_le.trans (open_now.le.trans reached))
  have near_lt : aim.rank (window.near aim) < aim.rank (window.far aim) := by
    refine lt_of_le_of_lt ?_ open_now
    rw [follows.near_eq]
    exact le_max_left _ _
  rw [approximates_iff aim, found_eq]
  refine ⟨fun low => ?_, fun _ => ⟨reached, ?_⟩, fun _ below => ?_⟩
  · exact absurd (beyond.trans low) (not_le.mpr near_lt)
  · exact (childHigh past).2.trans ((le_max_right _ _).trans improved)
  · exact absurd below (not_lt.mpr beyond)

theorem Follows.near_eq_of_le (follows : window.Follows aim exact found now)
    (low : aim.rank found.score ≤ aim.rank (window.near aim)) :
    aim.rank (now.near aim) = aim.rank (window.near aim) := by
  rw [follows.near_eq, max_eq_left low]

theorem Follows.isOpen_narrow (follows : window.Follows aim exact found now)
    (foundInteger : foundChild.score.IsInteger)
    (unclosed : (now.narrow foundChild.score aim).isClosed = false) :
    (now.narrow foundChild.score aim).IsOpen := by
  have farDefined := follows.isOpen.isDefined_far aim
  have narrowedDefined :=
    isDefined_near_narrow (follows.isOpen.isDefined_near aim) foundInteger.isDefined
  rw [isOpen_iff narrowedDefined (by rwa [far_narrow]), ← not_le,
    ← isClosed_iff narrowedDefined (by rwa [far_narrow]), unclosed]
  exact Bool.false_ne_true

/-- A child that leaves the window open lies before the far end, and so does its bound. -/
theorem Follows.child_short (follows : window.Follows aim exact found now)
    (child : now.Approximates exactChild foundChild)
    (foundInteger : foundChild.score.IsInteger)
    (unclosed : (now.narrow foundChild.score aim).isClosed = false) :
    aim.rank foundChild.score < aim.rank (window.far aim) ∧
      aim.rank exactChild.score < aim.rank (window.far aim) := by
  have nearDefined := follows.isOpen.isDefined_near aim
  have farDefined := follows.isOpen.isDefined_far aim
  have open_now := follows.isOpen_narrow foundInteger unclosed
  rw [isOpen_iff (isDefined_near_narrow nearDefined foundInteger.isDefined)
    (by rwa [far_narrow]), far_narrow, follows.far_eq,
    rank_near_narrow nearDefined foundInteger.isDefined] at open_now
  have found_short := (le_max_right _ _).trans_lt open_now
  refine ⟨found_short, ?_⟩
  by_contra past
  have childHigh := (follows.child_approximates child).2.1 (not_lt.mp past)
  exact absurd found_short (not_lt.mpr childHigh.1)

/-- As long as nothing exact comes past the near end, what is found lies between the two. -/
theorem Follows.insert_low {action : Action} (follows : window.Follows aim exact found now)
    (child : now.Approximates exactChild foundChild)
    (exactInteger : exactChild.score.IsInteger) (foundInteger : foundChild.score.IsInteger)
    (low : aim.rank (exact.insert aim action exactChild.score).score ≤
      aim.rank (window.near aim)) :
    aim.rank (exact.insert aim action exactChild.score).score ≤
        aim.rank (found.insert aim action foundChild.score).score ∧
      aim.rank (found.insert aim action foundChild.score).score ≤ aim.rank (window.near aim) := by
  rw [Tracker.rank_insert aim action follows.sawExact.isDefined exactInteger.isDefined] at low ⊢
  rw [Tracker.rank_insert aim action follows.sawFound.isDefined foundInteger.isDefined]
  rcases follows.low (max_le_iff.mp low).1 with ⟨exact_le, le_near⟩
  have childLow := (follows.child_approximates child).1
  rw [follows.near_eq_of_le le_near] at childLow
  rcases childLow (max_le_iff.mp low).2 with ⟨child_le, child_near⟩
  exact ⟨max_le_max exact_le child_le, max_le le_near child_near⟩

/-- Once something exact has come past the near end, the exact best is found. -/
theorem Follows.insert_eq {action : Action} (follows : window.Follows aim exact found now)
    (child : now.Approximates exactChild foundChild)
    (exactInteger : exactChild.score.IsInteger) (foundInteger : foundChild.score.IsInteger)
    (short : aim.rank exactChild.score < aim.rank (window.far aim))
    (above : aim.rank (window.near aim) <
      aim.rank (exact.insert aim action exactChild.score).score) :
    found.insert aim action foundChild.score = exact.insert aim action exactChild.score := by
  rcases follows.child_approximates child with ⟨childLow, -, childInside⟩
  rw [Tracker.rank_insert aim action follows.sawExact.isDefined exactInteger.isDefined,
    lt_max_iff] at above
  rcases le_or_gt (aim.rank exact.score) (aim.rank (window.near aim)) with low | high
  · -- The child is the first to come past the near end.
    have le_near := (follows.low low).2
    have child_above := above.resolve_left (not_lt.mpr low)
    rw [childInside ((follows.near_eq_of_le le_near).trans_lt child_above) short,
      Tracker.insert_of_lt follows.sawExact.isDefined exactInteger.isDefined
        (low.trans_lt child_above),
      Tracker.insert_of_lt follows.sawFound.isDefined exactInteger.isDefined
        (le_near.trans_lt child_above),
      follows.sawExact.not_truncated, follows.sawFound.not_truncated]
  · rcases follows.inside high with rfl
    have near_now : aim.rank (now.near aim) = aim.rank found.score := by
      rw [follows.near_eq, max_eq_right high.le]
    rw [near_now] at childLow childInside
    rcases le_or_gt (aim.rank exactChild.score) (aim.rank found.score) with worse | better
    · rw [Tracker.insert_of_le follows.sawFound.isDefined exactInteger.isDefined worse,
        Tracker.insert_of_le follows.sawFound.isDefined foundInteger.isDefined
          (childLow worse).2]
    · rw [childInside better short]

/-- A child that leaves the window open is followed by the next one. -/
theorem Follows.insert {action : Action} (follows : window.Follows aim exact found now)
    (child : now.Approximates exactChild foundChild)
    (exactInteger : exactChild.score.IsInteger) (foundInteger : foundChild.score.IsInteger)
    (unclosed : (now.narrow foundChild.score aim).isClosed = false) :
    window.Follows aim (exact.insert aim action exactChild.score)
      (found.insert aim action foundChild.score) (now.narrow foundChild.score aim) := by
  have holdsExact := follows.sawExact.insert action exactInteger
  have holdsFound := follows.sawFound.insert action foundInteger
  have exact_short := (follows.child_short child foundInteger unclosed).2
  constructor
  · exact .inr holdsExact
  · exact .inr holdsFound
  · rw [holdsExact.hasAction, holdsFound.hasAction]
  · exact follows.isOpen_narrow foundInteger unclosed
  · exact far_narrow.trans follows.far_eq
  · rw [rank_near_narrow (follows.isOpen.isDefined_near aim) foundInteger.isDefined,
      follows.near_eq,
      Tracker.rank_insert aim action follows.sawFound.isDefined foundInteger.isDefined, max_assoc]
  · exact follows.insert_low child exactInteger foundInteger
  · exact follows.insert_eq child exactInteger foundInteger exact_short
  · rw [Tracker.rank_insert aim action follows.sawExact.isDefined exactInteger.isDefined]
    exact max_lt follows.before_far exact_short

end Child

end Window

end GameSearch
