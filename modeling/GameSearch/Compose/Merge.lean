import GameSearch.Compose.Reference
import GameSearch.Fault

/-!
# Changing and merging configurations

Records are merged field by field; anything else that is given replaces what was there, except the mark
of a value still to be given. A configuration may be closed: then only what exists can be changed.
-/

namespace GameSearch.Compose

open Config (Entries Fields Value)

def hasParts : Value → Bool
  | .list _ => true
  | .record _ => true
  | _ => false

mutual

def merge (isOpen : Bool) (old : Value) : Value → Except Failure Value
  | .record fields =>
    match old with
    | .record oldFields => return .record (← mergeFields isOpen oldFields fields)
    | .list _ => .error .conflict
    | _ => .ok (.record fields)
  | .list items =>
    match old with
    | .record _ => .error .conflict
    | _ => .ok (.list items)
  | .text text => .ok (if text = openMark then old else .text text)
  | value => .ok value

/-- Merges fields into old ones. New fields need an open configuration. -/
def mergeFields (isOpen : Bool) (old : Fields) : Fields → Except Failure Fields
  | [] => .ok old
  | (name, value) :: fields => do
    let merged ← match Entries.get? old name with
      | some oldValue => merge isOpen oldValue value
      | none => if isOpen then pure value else .error .conflict
    mergeFields isOpen (Fields.set old name merged) fields

end

def placeOf (items : List Value) (key : String) : Except Failure Nat :=
  match Numeral.integer? key.toList with
  | none => .error (.invalid (Fault.message (.notAnInteger key)))
  | some place =>
    if 0 ≤ place ∧ place < items.length then .ok place.toNat else .error .conflict

/-- What a new value makes of an old one in its place. -/
def replace (isOpen : Bool) (old new : Value) : Except Failure Value :=
  if hasParts old && hasParts new then merge isOpen old new else .ok new

/-- Gives the value at the end of some keys. What lies on the way and has no parts becomes a record. -/
def update (isOpen : Bool) (root : Value) : (keys : List String) → Value → Except Failure Value
  | [], value => replace isOpen root value
  | key :: keys, value =>
    match root with
    | .record fields => do
      let old := Entries.get? fields key
      if old.isNone && !isOpen then throw .conflict
      let changed ← match keys, old with
        | [], some old => replace isOpen old value
        | [], none => pure value
        | _ :: _, some (.text text) =>
          if text = openMark then throw .conflict else update isOpen (.record []) keys value
        | _ :: _, some old =>
          update isOpen (if hasParts old then old else .record []) keys value
        | _ :: _, none => update isOpen (.record []) keys value
      return .record (Fields.set fields key changed)
    | .list items => do
      let place ← placeOf items key
      let old := items[place]?.getD .null
      let changed ← match keys with
        | [] => replace isOpen old value
        | _ => update isOpen (if hasParts old then old else .record []) keys value
      return .list (items.set place changed)
    | _ => .error .conflict

/-- Drops the field at the end of some keys. -/
def remove (root : Value) : (keys : List String) → Except Failure Value
  | [] => .error .conflict
  | key :: keys =>
    match root with
    | .record fields =>
      match keys, Entries.get? fields key with
      | [], _ => .ok (.record (Fields.erase fields key))
      | _ :: _, some old => do return .record (Fields.set fields key (← remove old keys))
      | _ :: _, none => .error .conflict
    | .list items => do
      let place ← placeOf items key
      return .list (items.set place (← remove (items[place]?.getD .null) keys))
    | _ => .error .conflict

/-- A value below some keys. -/
def nest (value : Value) : (keys : List String) → Value
  | [] => value
  | key :: keys => .record [(key, nest value keys)]

mutual

/-- Whether two values are equal. Numbers and truth values are compared by value. -/
def sameValue : Value → Value → Bool
  | .null, .null => true
  | .text first, .text second => first == second
  | .list first, .list second => sameItems first second
  | .record first, .record second => first.length == second.length && sameFields first second
  | .bool first, .bool second => first == second
  | .bool first, .number second => second.same (if first then 1 else 0)
  | .number first, .bool second => first.same (if second then 1 else 0)
  | .number first, .number second => first.same second
  | _, _ => false

/-- Whether two lists are equal. -/
def sameItems : List Value → List Value → Bool
  | [], [] => true
  | first :: firsts, second :: seconds => sameValue first second && sameItems firsts seconds
  | _, _ => false

/-- Whether all fields occur in another record. -/
def sameFields : Fields → Fields → Bool
  | [], _ => true
  | (name, value) :: fields, others =>
    (match others.find? fun field => field.1 == name with
      | some field => sameValue value field.2
      | none => false) && sameFields fields others

end

end GameSearch.Compose
