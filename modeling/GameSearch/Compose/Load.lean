import GameSearch.Compose.Defaults
import GameSearch.Compose.Merge
import GameSearch.Config.Location

/-!
# Loading a configuration

A configuration is composed from its parts, which are merged in order, then changed by overrides, and finally its
references are replaced. An override whose key is a group of options chooses among them; every other one
changes a value, in the order in which they are given.
-/

namespace GameSearch.Compose

open Config (Value Location)

/-- What a choice of an option asks for. -/
def choiceOfOperand : Operand → Except Failure Choice
  | .value (.text name) => .ok (.one name)
  | .value (.list names) => Choice.ofValue (.list names)
  | .value value =>
    .error (.invalid ("Config group override must be a string or a list. Got " ++ kindName value))
  | _ => .error .conflict

/-- The overrides by what they concern: options to choose, options to add, and values. -/
structure Wishes where
  choices : Choices
  added : List Default
  changes : List Override

def Override.givesRecord (override : Override) : Bool :=
  match override.operand with
  | .value (.record _) => true
  | _ => false

/-- The key of a group with the place that is asked for. -/
def Override.groupKey (override : Override) : String :=
  match override.package with
  | none => override.key
  | some package => override.key ++ "@" ++ package

/-- Sorts an override by what it concerns. -/
def Wishes.insert (isGroup : String → Bool) (wishes : Wishes) (override : Override) :
    Except Failure Wishes :=
  if override.givesRecord || !isGroup override.key then
    .ok { wishes with changes := wishes.changes ++ [override] }
  else match override.change with
    | .force => .error .conflict
    | .remove =>
      match override.operand with
      | .value (.text name) => .ok { wishes with choices := { wishes.choices with
          dropped := wishes.choices.dropped ++ [(override.groupKey, some name)] } }
      | _ => .ok { wishes with choices := { wishes.choices with
          dropped := wishes.choices.dropped ++ [(override.groupKey, none)] } }
    | .add => do
      let chosen ← choiceOfOperand override.operand
      return { wishes with
        added := wishes.added ++ [⟨.choice override.key chosen, override.package, false⟩] }
    | .give => do
      let chosen ← choiceOfOperand override.operand
      let others := wishes.choices.chosen.filter fun choice => choice.1 != override.groupKey
      return { wishes with choices := { wishes.choices with
        chosen := others ++ [(override.groupKey, chosen)] } }

/-- The keys that a dotted text stands for. -/
def keysOf (text : String) : List String := (splitAt '.' text.toList).map String.ofList

/-- What is at the end of some keys; errors on the way are conflicts. -/
def present (root : Value) (keys : List String) : Except Failure (Option Located) :=
  (select root keys).mapError fun _ => .conflict

def applyOverride (root : Value) (override : Override) : Except Failure Value := do
  if override.package.isSome then throw .conflict
  let keys := keysOf override.key
  match override.change, override.operand with
  | .remove, operand =>
    match ← present root keys with
    | none => throw .conflict
    | some found =>
      let isMeant := match operand with
        | .value .null => true
        | .value value => sameValue value found.value
        | _ => true
      if !isMeant then throw .conflict
      match ← present root keys.dropLast with
      | some parent => remove root (parent.path ++ keys.getLast?.toList)
      | none => throw .conflict
  | change, .value value => do
    if !isWellFormed value then throw .conflict
    if change = .add ∧ !hasParts value then
      if (← present root keys).isSome then throw .conflict
    update (change != .give) root keys value
  | _, _ => throw .conflict

def addPart (find : String → Except Failure (Option Source)) (root : Value) (part : Part) :
    Except Failure Value := do
  match ← find part.name with
  | none => throw .notFound
  | some source =>
    let keys := if part.package.isEmpty then [] else keysOf part.package
    match keys, source.content with
    | [], .list _ => throw .conflict
    | _, content => merge true root (nest content keys)

/-- How many files a configuration may be built from in a row. -/
def deepest (files : Files) : Nat :=
  files.entries.foldl (fun steps entry => steps + entry.2.length + 8) 64

/-- Composes the configuration at a location. -/
def load (files : Files) (location : Location) (overrides : List String) : Except Failure Value := do
  let some directory := Files.directory (Path.ofText location.directory) | throw .notFound
  if !files.isDirectory directory then throw .notFound
  let some changes := overrides.mapM Override.read? | throw .malformedOverride
  let find := Source.find files directory
  if let some source ← find location.name then
    if let .list _ := source.content then throw .conflict
  if changes.any fun change => change.operand matches .sweep then throw .conflict
  let isGroup (key : String) : Bool :=
    files.isDirectory (directory ++ (splitAt '/' key.toList).map String.ofList)
  let wishes ← changes.foldlM (Wishes.insert isGroup) ⟨⟨[], [], []⟩, [], []⟩
  let parts ← partsFrom find (deepest files) location.name wishes.choices wishes.added
  let composed ← parts.foldlM (addPart find) (.record [])
  let changed ← wishes.changes.foldlM applyOverride composed
  resolved changed

end GameSearch.Compose
