import GameSearch.Text.Ranges
import GameSearch.Yaml.Node
import GameSearch.Yaml.Plain

/-!
# The value of a document

Scalars are read as they look or as their tags demand, mappings become records whose keys are texts, and the entries
of merged mappings are added to those that a mapping has itself. No text may be a key twice.
-/

namespace GameSearch.Yaml

open Config (Value Fields)

/-- The tag that a shorthand stands for, without the common start of the standard tags. -/
def standardTag? (tag : String) : Option String :=
  match tag.toList with
  | '!' :: rest => some (String.ofList rest)
  | _ => none

def scalarValue (text : String) (plain : Bool) (tag : Option String) : Except Flaw Value :=
  match tag with
  | none =>
    if !plain then .ok (.text text)
    else if text == "=" then .error .meaning
    else .ok (plainValue text)
  | some tag =>
    if tag.isEmpty then .ok (.text text)
    else match standardTag? tag, plainValue text with
      | some "str", _ => .ok (.text text)
      | some "null", _ => .ok .null
      | some "bool", .bool value => .ok (.bool value)
      | some "int", .number (.int value) => .ok (.number (.int value))
      | some "float", .number value => .ok (.number (.real value.toFloat))
      | _, _ => .error .meaning

/-- Whether a scalar used as a key asks for a merge. -/
def Node.isMerge : Node → Bool
  | .scalar text true none => text == "<<"
  | _ => false

/-- The text of a key that is certain to be one. -/
def Node.textKey? : Node → Option String
  | .scalar text plain tag =>
    match scalarValue text plain tag with
    | .ok (.text value) => some value
    | _ => none
  | _ => none

/-- The name of the field that a key stands for. -/
def Node.fieldName : Node → Except Flaw String
  | .scalar text plain tag =>
    match scalarValue text plain tag with
    | .ok (.text value) => .ok value
    | .ok (.number value) => .ok value.text
    | .ok (.bool value) => .ok (if value then "true" else "false")
    | .ok .null => .ok "null"
    | .ok _ => .error .meaning
    | .error flaw => if plain ∧ text = "=" then .ok text else .error flaw
  | _ => .error .meaning

/-- The mappings that a merge refers to, the one that counts most first. -/
def Node.merged : Node → Except Flaw (List (List (Node × Node)))
  | .mapping entries _ => .ok [entries]
  | .list items _ => items.mapM fun
    | .mapping entries _ => .ok entries
    | _ => .error .meaning
  | _ => .error .meaning

/-- The entries of a mapping, after those of the mappings that it merges. -/
def flattened : (steps : Nat) → List (Node × Node) → Except Flaw (List (Node × Node))
  | 0, _ => .error .meaning
  | steps + 1, entries => do
    let merges ← (entries.filter (·.1.isMerge)).mapM fun entry => do
      let mappings ← entry.2.merged
      return (← mappings.reverse.mapM (flattened steps)).flatten
    return merges.flatten ++ entries.filter fun entry => !entry.1.isMerge

/-- Whether a text occurs twice. -/
def hasRepeated : List String → Bool
  | [] => false
  | text :: texts => texts.contains text || hasRepeated texts

mutual

def Node.value : (steps : Nat) → Node → Except Flaw Value
  | 0, _ => .error .meaning
  | _ + 1, .scalar text plain tag => scalarValue text plain tag
  | steps + 1, .list items tag =>
    if tag.all (· ∈ ["", "!seq"]) then return .list (← Node.values steps items)
    else .error .meaning
  | steps + 1, .mapping entries tag =>
    if !tag.all (· ∈ ["", "!map"]) || hasRepeated (entries.filterMap (·.1.textKey?)) then
      .error .meaning
    else do
      let fields ← Node.fields steps (← flattened steps entries)
      return .record (fields.foldl (fun record field => Fields.set record field.1 field.2) [])

def Node.values : (steps : Nat) → List Node → Except Flaw (List Value)
  | 0, _ => .error .meaning
  | _ + 1, [] => .ok []
  | steps + 1, item :: items => do
    let value ← item.value steps
    return value :: (← Node.values steps items)

/-- The fields that entries stand for. -/
def Node.fields : (steps : Nat) → List (Node × Node) → Except Flaw Fields
  | 0, _ => .error .meaning
  | _ + 1, [] => .ok []
  | steps + 1, (key, content) :: entries => do
    let name ← key.fieldName
    let value ← content.value steps
    return (name, value) :: (← Node.fields steps entries)

end

def permittedRanges : List (Nat × Nat) :=
  [(0x9, 0xA), (0xD, 0xD), (0x20, 0x7E), (0x85, 0x85), (0xA0, 0xD7FF), (0xE000, 0xFFFD),
   (0x10000, 0x10FFFF)]

def read (text : String) : Except Flaw Value := do
  if !text.toList.all fun char => Text.inRanges permittedRanges char.toNat then throw .character
  (← readDocument text).value (4 * text.length + 8)

end GameSearch.Yaml
