import GameSearch.Proofs.Decimal.Written
import GameSearch.Proofs.Search.Best
import Mathlib.Data.List.Induction

/-!
# What a tracker holds after any calls

Scored actions, fallbacks and marks may reach a tracker in any order, and a score may be undefined.
Whatever the order, the tracker ends with the best of the score it started from and the scores that
were inserted. If one of these was better than the first score, the action is the first one inserted
with the best score, even if a fallback came before it. Otherwise it is the first fallback.

`Tracker.Records` is the invariant that carries this from call to call. It speaks of ranks, so that
one argument serves both aims.
-/

namespace GameSearch

variable {Action : Type} {aim : Aim} {score other : Number}

namespace Aim

/-- Whether a score is at least as good as another one. -/
def reaches : Aim → Number → Number → Bool
  | .greatest, score, other => other.atMost score
  | .least, score, other => score.atMost other

theorem reaches_iff (scoreDefined : score.IsDefined) (otherDefined : other.IsDefined) :
    aim.reaches score other = true ↔ aim.rank other ≤ aim.rank score := by
  cases aim with
  | greatest => exact Number.atMost_iff otherDefined scoreDefined
  | least => exact (Number.atMost_iff scoreDefined otherDefined).trans EReal.neg_le_neg_iff.symm

end Aim

namespace Tracker

/-- What may be asked of a tracker while the best action is sought. -/
inductive Call (Action : Type) where
  | insert (action : Action) (score : Number)
  | fallback (action : Action)
  | truncate

namespace Call

/-- The scored action that a call inserts. -/
def entry? : Call Action → Option (Action × Number)
  | .insert action score => some (action, score)
  | .fallback _ => none
  | .truncate => none

/-- The action that a call gives as a fallback. -/
def fallback? : Call Action → Option Action
  | .insert _ _ => none
  | .fallback action => some action
  | .truncate => none

/-- The scored actions that are inserted, in order. -/
def entries (calls : List (Call Action)) : List (Action × Number) := calls.filterMap entry?

/-- The fallbacks that are given, in order. -/
def fallbacks (calls : List (Call Action)) : List Action := calls.filterMap fallback?

variable {calls : List (Call Action)} {call : Call Action}

@[simp]
theorem entries_append : entries (calls ++ [call]) = entries calls ++ call.entry?.toList := by
  rw [entries, entries, List.filterMap_append, List.filterMap_cons]
  cases call.entry? <;> rfl

@[simp]
theorem fallbacks_append :
    fallbacks (calls ++ [call]) = fallbacks calls ++ call.fallback?.toList := by
  rw [fallbacks, fallbacks, List.filterMap_append, List.filterMap_cons]
  cases call.fallback? <;> rfl

end Call

/-- A call to the tracker of a mover, who inserts greater or smaller scores. -/
def perform (aim : Aim) (tracker : Tracker Action) : Call Action → Tracker Action
  | .insert action score =>
    match aim with
    | .greatest => tracker.insertMax action score
    | .least => tracker.insertMin action score
  | .fallback action => tracker.withFallback action
  | .truncate => tracker.truncate

/-- Several calls, one after another. -/
def performAll (aim : Aim) (tracker : Tracker Action) (calls : List (Call Action)) :
    Tracker Action :=
  calls.foldl (perform aim) tracker

variable {tracker : Tracker Action} {baseline : Number} {entries : List (Action × Number)}
  {fallbacks : List Action} {action : Action}

@[simp]
theorem perform_insert :
    tracker.perform aim (.insert action score) = tracker.insert aim action score := by
  cases aim <;> rfl

@[simp]
theorem perform_fallback :
    tracker.perform aim (.fallback action) = tracker.withFallback action := rfl

@[simp]
theorem perform_truncate : tracker.perform aim .truncate = tracker.truncate := rfl

/-- What a tracker knows of the scored actions and the fallbacks that have reached it. -/
structure Records (aim : Aim) (baseline : Number) (entries : List (Action × Number))
    (fallbacks : List Action) (tracker : Tracker Action) : Prop where
  isDefined : tracker.score.IsDefined
  mem : tracker.score ∈ baseline :: entries.map Prod.snd
  baseline_le : aim.rank baseline ≤ aim.rank tracker.score
  entries_le : ∀ entry ∈ entries, entry.2.IsDefined → aim.rank entry.2 ≤ aim.rank tracker.score
  first : aim.rank baseline < aim.rank tracker.score → ∃ entry,
    entries.find? (fun entry => entry.2.same tracker.score) = some entry ∧
      tracker.action = some entry.1
  spare : aim.rank tracker.score ≤ aim.rank baseline → tracker.action = fallbacks.head?

theorem records_start (aim : Aim) (defined : baseline.IsDefined) :
    (start baseline : Tracker Action).Records aim baseline [] [] where
  isDefined := defined
  mem := List.mem_cons_self
  baseline_le := le_rfl
  entries_le := by simp
  first := fun beaten => absurd beaten (lt_irrefl _)
  spare := fun _ => rfl

namespace Records

/-- A strictly better score is the first of its kind. -/
theorem find?_of_prefers (records : tracker.Records aim baseline entries fallbacks)
    (better : aim.prefers score tracker.score = true) (action : Action) :
    (entries ++ [(action, score)]).find? (fun entry => entry.2.same score) =
      some (action, score) := by
  rcases Aim.isDefined_of_prefers better with ⟨scoreDefined, trackerDefined⟩
  have higher := (Aim.prefers_iff scoreDefined trackerDefined).mp better
  have unseen : entries.find? (fun entry => entry.2.same score) = none := by
    rw [List.find?_eq_none]
    intro entry mem same
    have known := records.entries_le entry mem (Number.isDefined_of_same same).1
    rw [aim.rank_eq_of_same same] at known
    exact absurd higher (not_lt.mpr known)
  rw [List.find?_append, unseen, Option.none_or, List.find?_singleton,
    Number.same_self scoreDefined]
  rfl

theorem insert (records : tracker.Records aim baseline entries fallbacks) (action : Action)
    (score : Number) :
    (tracker.insert aim action score).Records aim baseline (entries ++ [(action, score)])
      fallbacks := by
  by_cases better : aim.prefers score tracker.score = true
  · rcases Aim.isDefined_of_prefers better with ⟨scoreDefined, trackerDefined⟩
    have higher := (Aim.prefers_iff scoreDefined trackerDefined).mp better
    have beaten := records.baseline_le.trans_lt higher
    -- The score passes everything seen so far, so it is the first of its kind.
    rw [Tracker.insert, if_pos better]
    constructor
    · exact scoreDefined
    · simp
    · exact beaten.le
    · simp only [List.mem_append, List.mem_singleton]
      rintro entry (earlier | rfl) entryDefined
      · exact (records.entries_le entry earlier entryDefined).trans higher.le
      · exact le_rfl
    · exact fun _ => ⟨(action, score), records.find?_of_prefers better action, rfl⟩
    · exact fun unbeaten => absurd beaten (not_lt.mpr unbeaten)
  · -- Nothing changes: the score is undefined or no better.
    rw [Tracker.insert, if_neg better]
    constructor
    · exact records.isDefined
    · rw [List.map_append, ← List.cons_append]
      exact List.mem_append_left _ records.mem
    · exact records.baseline_le
    · simp only [List.mem_append, List.mem_singleton]
      rintro entry (earlier | rfl) entryDefined
      · exact records.entries_le entry earlier entryDefined
      · rw [Aim.prefers_iff entryDefined records.isDefined] at better
        exact not_lt.mp better
    · intro beaten
      rcases records.first beaten with ⟨entry, found, stored⟩
      exact ⟨entry, by rw [List.find?_append, found, Option.some_or], stored⟩
    · exact records.spare

/-- A fallback counts if there is neither an action that was inserted nor an earlier fallback. -/
theorem withFallback (records : tracker.Records aim baseline entries fallbacks)
    (action : Action) :
    (tracker.withFallback action).Records aim baseline entries (fallbacks ++ [action]) where
  isDefined := records.isDefined
  mem := records.mem
  baseline_le := records.baseline_le
  entries_le := records.entries_le
  first beaten := by
    rcases records.first beaten with ⟨entry, found, stored⟩
    exact ⟨entry, found, by rw [Tracker.withFallback, stored]; rfl⟩
  spare unbeaten := by
    rw [Tracker.withFallback, records.spare unbeaten, List.head?_append, Option.or_eq_orElse]
    rfl

theorem truncate (records : tracker.Records aim baseline entries fallbacks) :
    tracker.truncate.Records aim baseline entries fallbacks :=
  ⟨records.isDefined, records.mem, records.baseline_le, records.entries_le, records.first,
    records.spare⟩

theorem perform {calls : List (Call Action)}
    (records : tracker.Records aim baseline (Call.entries calls) (Call.fallbacks calls))
    (call : Call Action) :
    (tracker.perform aim call).Records aim baseline (Call.entries (calls ++ [call]))
      (Call.fallbacks (calls ++ [call])) := by
  cases call with
  | insert action score => simpa [Call.entry?, Call.fallback?] using records.insert action score
  | fallback action => simpa [Call.entry?, Call.fallback?] using records.withFallback action
  | truncate => simpa [Call.entry?, Call.fallback?] using records.truncate

/-- The score that was there first is beaten if an inserted one is better. -/
theorem beaten_iff (records : tracker.Records aim baseline entries fallbacks)
    (defined : baseline.IsDefined) :
    (∃ entry ∈ entries, aim.prefers entry.2 baseline = true) ↔
      aim.rank baseline < aim.rank tracker.score := by
  constructor
  · rintro ⟨entry, mem, better⟩
    have entryDefined := (Aim.isDefined_of_prefers better).1
    have above := (Aim.prefers_iff entryDefined defined).mp better
    exact above.trans_le (records.entries_le entry mem entryDefined)
  · intro beaten
    rcases List.mem_cons.mp records.mem with kept | stored
    · rw [kept] at beaten
      exact absurd beaten (lt_irrefl _)
    · rcases List.mem_map.mp stored with ⟨entry, mem, score_eq⟩
      refine ⟨entry, mem, ?_⟩
      rw [score_eq, Aim.prefers_iff records.isDefined defined]
      exact beaten

end Records

theorem performAll_append (aim : Aim) (tracker : Tracker Action) (calls : List (Call Action))
    (call : Call Action) :
    tracker.performAll aim (calls ++ [call]) = (tracker.performAll aim calls).perform aim call := by
  rw [performAll, List.foldl_append]
  rfl

theorem records_performAll (aim : Aim) (defined : baseline.IsDefined)
    (calls : List (Call Action)) :
    ((start baseline).performAll aim calls).Records aim baseline (Call.entries calls)
      (Call.fallbacks calls) := by
  induction calls using List.reverseRecOn with
  | nil => exact records_start aim defined
  | append_singleton calls call ih =>
      rw [performAll_append]
      exact ih.perform call

theorem action?_of_some (stored : tracker.action = some action) : tracker.action? = .ok action := by
  simp only [action?, stored]

theorem action?_of_none (missing : tracker.action = none) :
    (tracker.score.Writable →
      tracker.action? = .error (.missingAction tracker.score.text)) ∧
    (¬tracker.score.Writable → tracker.action? = .error .unwrittenInteger) := by
  constructor
  · intro writable
    simp only [action?, missing, Number.written_of_writable writable]
    rfl
  · intro long
    simp only [action?, missing, Number.written_of_not_writable long]
    rfl

/-- Whatever calls reach a fresh tracker, and in whatever order: the score is the best of the first
score and of the defined scores that were inserted. If an inserted score was better than the first
one, the action is the first one inserted with the final score. If not, it is the first fallback,
and without a fallback there is no action. The account of this gives the score, if it can be
written. -/
theorem performAll_holds_first_best (aim : Aim) {baseline : Number} (defined : baseline.IsDefined)
    (calls : List (Call Action)) :
    let final := (start baseline).performAll aim calls
    let entries := Call.entries calls
    (final.score.IsDefined ∧ final.score ∈ baseline :: entries.map Prod.snd ∧
      ∀ score ∈ baseline :: entries.map Prod.snd, score.IsDefined →
        aim.reaches final.score score = true) ∧
    ((∃ entry ∈ entries, aim.prefers entry.2 baseline = true) →
      final.hasAction = true ∧ ∃ entry,
        entries.find? (fun entry => entry.2.same final.score) = some entry ∧
        final.action? = .ok entry.1) ∧
    ((∀ entry ∈ entries, aim.prefers entry.2 baseline = false) →
      match (Call.fallbacks calls).head? with
      | some action => final.hasAction = true ∧ final.action? = .ok action
      | none => final.hasAction = false ∧
        (final.score.Writable → final.action? = .error (.missingAction final.score.text)) ∧
        (¬final.score.Writable → final.action? = .error .unwrittenInteger)) := by
  intro final entries
  have records : final.Records aim baseline entries (Call.fallbacks calls) :=
    records_performAll aim defined calls
  refine ⟨⟨records.isDefined, records.mem, ?_⟩, ?_, ?_⟩
  · intro score mem scoreDefined
    rw [Aim.reaches_iff records.isDefined scoreDefined]
    rcases List.mem_cons.mp mem with rfl | inserted
    · exact records.baseline_le
    · rcases List.mem_map.mp inserted with ⟨entry, entry_mem, rfl⟩
      exact records.entries_le entry entry_mem scoreDefined
  · intro better
    rcases records.first ((records.beaten_iff defined).mp better) with ⟨entry, found, stored⟩
    exact ⟨by rw [hasAction, stored]; rfl, entry, found, action?_of_some stored⟩
  · intro worse
    have unbeaten : aim.rank final.score ≤ aim.rank baseline := by
      rw [← not_lt, ← records.beaten_iff defined]
      rintro ⟨entry, mem, better⟩
      simp [worse entry mem] at better
    have spare := records.spare unbeaten
    split
    · rename_i action given
      rw [given] at spare
      exact ⟨by rw [hasAction, spare]; rfl, action?_of_some spare⟩
    · rename_i given
      rw [given] at spare
      exact ⟨by rw [hasAction, spare]; rfl, action?_of_none spare⟩

/-- A fallback before the first insertion, an undefined score, and a tie between an integer and a
double: the first of the tied actions stays. -/
theorem performAll_holds_first_best_tied :
    let undefined : Number := .real (Float.ofBits 0x7FF8000000000000)
    let two : Number := .real (Float.ofBits 0x4000000000000000)
    let calls : List (Call String) := [.fallback "spare", .insert "odd" undefined,
      .insert "first" two, .truncate, .insert "second" (.int 2), .insert "low" (.int 1)]
    let final := (start (.int 0)).performAll .greatest calls
    let entries := Call.entries calls
    (Number.int 0).IsDefined ∧ final.action? = .ok "first" ∧
    (final.score.IsDefined ∧ final.score ∈ .int 0 :: entries.map Prod.snd ∧
      ∀ score ∈ .int 0 :: entries.map Prod.snd, score.IsDefined →
        Aim.greatest.reaches final.score score = true) ∧
    ((∃ entry ∈ entries, Aim.greatest.prefers entry.2 (.int 0) = true) →
      final.hasAction = true ∧ ∃ entry,
        entries.find? (fun entry => entry.2.same final.score) = some entry ∧
        final.action? = .ok entry.1) ∧
    ((∀ entry ∈ entries, Aim.greatest.prefers entry.2 (.int 0) = false) →
      match (Call.fallbacks calls).head? with
      | some action => final.hasAction = true ∧ final.action? = .ok action
      | none => final.hasAction = false ∧
        (final.score.Writable → final.action? = .error (.missingAction final.score.text)) ∧
        (¬final.score.Writable → final.action? = .error .unwrittenInteger)) :=
  ⟨by decide, by rfl, performAll_holds_first_best .greatest (by decide) _⟩

/-- The least score that cannot be written keeps a fresh tracker from saying that it has no action. -/
theorem performAll_holds_first_best_unwritten :
    let baseline : Number := .int (10 ^ Numeral.digitLimit : Nat)
    let final : Tracker String := (start baseline).performAll .greatest []
    baseline.IsDefined ∧ final.score = baseline ∧ final.hasAction = false ∧
      final.action? = .error .unwrittenInteger ∧
      ∀ account, final.action? ≠ .error (.missingAction account) := by
  intro baseline final
  have long : ¬baseline.Writable := fun less => absurd less (lt_irrefl (10 ^ Numeral.digitLimit))
  have unwritten : final.action? = .error .unwrittenInteger := (action?_of_none rfl).2 long
  refine ⟨Number.isDefined_int _, rfl, rfl, unwritten, ?_⟩
  rw [unwritten]
  rintro account ⟨⟩

end Tracker

end GameSearch
