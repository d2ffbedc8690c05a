import GameSearch.Config.Value

/-!
# Problems of a configuration

Validation reports every problem it finds, each with its cause and the path of the value in question. `Checked`
results are combined so that the problems of all parts are collected in order.
-/

namespace GameSearch.Config

/-- Why a value is not accepted. -/
inductive Cause where
  | missing
  | extraForbidden
  | intType
  | intFromFloat
  | intParsing
  | intParsingSize
  | finiteNumber
  | floatType
  | floatParsing
  | boolType
  | boolParsing
  | stringType
  | stringTooShort
  | listType
  | tooShort
  | literalError
  | greaterThan
  | greaterThanEqual
  | modelType
  | modelAttributesType
  | unionTagNotFound
  | unionTagInvalid
  /-- A rule of the domain is broken, with an account of it. -/
  | valueError (account : String)
  deriving DecidableEq, Repr

/-- One step from a value into it. -/
inductive Step where
  | key (name : String)
  | index (place : Nat)
  deriving DecidableEq, Repr

/-- A problem and where it is. -/
structure Problem where
  cause : Cause
  path : List Step
  deriving DecidableEq, Repr

/-- A value that has passed validation, or all the problems found. -/
abbrev Checked (α : Type) := Except (List Problem) α

namespace Checked

variable {α β γ : Type}

/-- A single problem with the value itself. -/
def refuse (cause : Cause) : Checked α := .error [⟨cause, []⟩]

/-- Places the problems of a part under its step. -/
def under (step : Step) (result : Checked α) : Checked α :=
  result.mapError fun problems =>
    problems.map fun problem => { problem with path := step :: problem.path }

/-- Combines two results; the problems of the first one come first. -/
def both (combine : α → β → γ) (first : Checked α) (second : Checked β) : Checked γ :=
  match first, second with
  | .ok first, .ok second => .ok (combine first second)
  | .error problems, .ok _ => .error problems
  | .ok _, .error problems => .error problems
  | .error problems, .error others => .error (problems ++ others)

/-- Combines the results of all items. -/
def all : List (Checked α) → Checked (List α)
  | [] => .ok []
  | result :: results => both List.cons result (all results)

/-- Requires a condition of an accepted value. -/
def require (holds : α → Bool) (cause : α → Cause) (result : Checked α) : Checked α :=
  match result with
  | .ok value => if holds value then .ok value else refuse (cause value)
  | .error problems => .error problems

end Checked

/-- The value of an entry, or its default if the entry is absent. -/
def Entries.read {Raw α : Type} (entries : Entries Raw) (name : String) (default? : Option α)
    (read : Raw → Checked α) : Checked α :=
  match entries.get? name, default? with
  | some raw, _ => (read raw).under (.key name)
  | none, some value => .ok value
  | none, none => (Checked.refuse .missing).under (.key name)

/-- Refuses the entries that are not known. -/
def Entries.close {Raw α : Type} (entries : Entries Raw) (known : List String)
    (result : Checked α) : Checked α :=
  let extra := entries.filter fun entry => entry.1 ∉ known
  if extra.isEmpty then result
  else Checked.both (fun value (_ : Unit) => value) result
    (.error (extra.map fun entry => ⟨.extraForbidden, [.key entry.1]⟩))

end GameSearch.Config
