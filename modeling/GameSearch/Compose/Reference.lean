import GameSearch.Compose.Failure
import GameSearch.Config.Value
import GameSearch.Decimal.Reading
import GameSearch.Text.Quoted

/-!
# References between values

A text may refer to other values by their keys, as in `${a.b}`. Keys are counted from the top, or, after one or more
dots, from the record that holds the text or one around it. A text that is nothing but one reference stands for the
value itself; otherwise the values are put into the text. A backslash takes a reference its meaning.

`expand` replaces all references. Every reference followed takes a step off a budget that grows with the
configuration, and only references in a circle use it up.
-/

namespace GameSearch.Compose

open Config (Entries Fields Value)

/-- The text of a value that is still to be given. -/
def openMark : String := "???"

/-- A reference: from how many records up it starts, zero for the top, and the keys from there on. -/
structure Reference where
  dots : Nat
  keys : List (List Char)

/-- A piece of a text with references. -/
inductive Piece where
  | chars (content : List Char)
  | reference (target : Reference)
  /-- A reference whose keys depend on references inside it. -/
  | nested (content : List Char)
  /-- A call of a function. -/
  | call

/-- What starts a reference. -/
def opening : List Char := ['$', '\x7b']

/-- Splits the inside of a reference from what follows its closing brace. -/
def splitClosing : (depth : Nat) → List Char → Option (List Char × List Char)
  | _, [] => none
  | 0, '\x7d' :: rest => some ([], rest)
  | depth, char :: rest =>
    let depth := if char = '\x7b' then depth + 1 else if char = '\x7d' then depth - 1 else depth
    (splitClosing depth rest).map fun (inside, after) => (char :: inside, after)

def isKeyChar (char : Char) : Bool :=
  !("\\$\x7b\x7d()[]:. \t'\"".toList.contains char)

/-- Splits the keys of a reference, which are separated by dots or stand in brackets. -/
def splitKeys : (steps : Nat) → List Char → Option (List (List Char))
  | 0, _ => none
  | steps + 1, chars =>
    let (key, rest) := match chars with
      | '[' :: inside => (inside.takeWhile isKeyChar, (inside.dropWhile isKeyChar))
      | _ => (chars.takeWhile isKeyChar, chars.dropWhile isKeyChar)
    let rest := if chars.head? == some '[' then
      match rest with
      | ']' :: rest => some rest
      | _ => none
      else some rest
    if key.isEmpty then none
    else match rest with
      | none => none
      | some [] => some [key]
      | some ('.' :: rest) => (splitKeys steps rest).map (key :: ·)
      | some ('[' :: rest) => (splitKeys steps ('[' :: rest)).map (key :: ·)
      | some _ => none

def trimBlanks (chars : List Char) : List Char :=
  let drop := List.dropWhile fun char : Char => char == ' ' || char == '\t'
  (drop (drop chars).reverse).reverse

def Piece.ofInside (inside : List Char) : Option Piece :=
  let inside := trimBlanks inside
  let keys := inside.dropWhile (· == '.')
  if (keys.takeWhile fun char => isKeyChar char || char == '.') ≠ keys ∧
      (keys.dropWhile fun char => isKeyChar char || char == '.').head? = some ':' then some .call
  else if '$' ∈ inside then some (.nested inside)
  else (splitKeys (keys.length + 1) keys).map fun names =>
    .reference ⟨inside.length - keys.length, names⟩

/-- The pieces of a text. Backslashes directly before a reference count in pairs. -/
def pieces : (steps : Nat) → List Char → Option (List Piece)
  | 0, _ => none
  | _ + 1, [] => some []
  | steps + 1, chars =>
    let slashes := (chars.takeWhile (· == '\\')).length
    let rest := chars.drop slashes
    if opening.isPrefixOf rest then
      let before := Piece.chars (List.replicate (slashes / 2) '\\')
      if slashes % 2 = 1 then
        (pieces steps (rest.drop 2)).map fun others => before :: .chars opening :: others
      else do
        let (inside, after) ← splitClosing 0 (rest.drop 2)
        let piece ← Piece.ofInside inside
        return before :: piece :: (← pieces steps after)
    else
      let part := rest.takeWhile fun char => char != '\\' && char != '$'
      let part := if part.isEmpty then rest.take 1 else part
      (pieces steps (rest.drop part.length)).map fun others =>
        .chars (List.replicate slashes '\\' ++ part) :: others

/-- The pieces of a text, without empty ones. -/
def piecesOf (chars : List Char) : Option (List Piece) :=
  (pieces (chars.length + 2) chars).map fun found => found.filter fun
    | .chars content => !content.isEmpty
    | _ => true

/-- Whether a text starts a reference somewhere. -/
def hasReference : List Char → Bool
  | [] => false
  | char :: rest => opening.isPrefixOf (char :: rest) || hasReference rest

mutual

def wording : Value → String
  | .null => "None"
  | .bool value => if value then "True" else "False"
  | .number value => value.text
  | .text value => Text.quoted value
  | .list items => Text.bracketed (wordings items)
  | .record fields => "\x7b" ++ ", ".intercalate (fieldWordings fields) ++ "\x7d"

def wordings : List Value → List String
  | [] => []
  | item :: items => wording item :: wordings items

def fieldWordings : Fields → List String
  | [] => []
  | (name, value) :: fields =>
    (Text.quoted name ++ ": " ++ wording value) :: fieldWordings fields

end

/-- The text that a value becomes inside another text. -/
def textOf : Value → String
  | .text value => value
  | value => wording value

mutual

/-- A bound on the work that the references of a value can make. -/
def weight : Value → Nat
  | .text value => value.length + 4
  | .list items => weights items + 4
  | .record fields => fieldWeights fields + 4
  | _ => 4

/-- The work of values. -/
def weights : List Value → Nat
  | [] => 0
  | item :: items => weight item + weights items

/-- The work of fields. -/
def fieldWeights : Fields → Nat
  | [] => 0
  | (_, value) :: fields => weight value + fieldWeights fields

end

/-- A value and the keys that lead to it. -/
structure Located where
  path : List String
  value : Value

/-- The part of a value that a key names. Only records and lists have parts. -/
def part (value : Value) (key : String) : Except Failure (Option Value) :=
  match value with
  | .record fields => .ok (Entries.get? fields key)
  | .list items =>
    match Numeral.integer? key.toList with
    | some (.ofNat place) => .ok items[place]?
    | some _ => .ok none
    | none => .error .circularReference
  | _ => .error .circularReference

mutual

/-- What stands at a place, after following references. Texts that come out are final. -/
def settle (root : Value) : (steps : Nat) → Located → Except Failure Located
  | 0, _ => .error .circularReference
  | steps + 1, found =>
    match found.value with
    | .text text =>
      if !hasReference text.toList then .ok found
      else match piecesOf text.toList with
        | none => .error .conflict
        | some [.chars content] => .ok { found with value := .text (String.ofList content) }
        | some [piece] => followPiece root steps found.path piece
        | some parts => do
          let texts ← fillPieces root steps found.path parts
          return { found with value := .text (String.join texts) }
    | _ => .ok found

/-- The texts of pieces. -/
def fillPieces (root : Value) :
    (steps : Nat) → (path : List String) → List Piece → Except Failure (List String)
  | 0, _, _ => .error .circularReference
  | _ + 1, _, [] => .ok []
  | steps + 1, path, .chars content :: others => do
    return String.ofList content :: (← fillPieces root steps path others)
  | steps + 1, path, piece :: others => do
    let target ← followPiece root steps path piece
    return textOf target.value :: (← fillPieces root steps path others)

/-- Follows the reference of a piece of the text at `path`. -/
def followPiece (root : Value) :
    (steps : Nat) → (path : List String) → Piece → Except Failure Located
  | 0, _, _ => .error .circularReference
  | _ + 1, _, .chars _ => .error .conflict
  | _ + 1, _, .call => .error .unknownFunction
  | steps + 1, path, .nested content =>
    match piecesOf content with
    | none => .error .conflict
    | some parts => do
      let filled := (String.join (← fillPieces root steps path parts)).toList
      match Piece.ofInside filled with
      | some (.reference target) => followPiece root steps path (.reference target)
      | _ => .error .circularReference
  | steps + 1, path, .reference target =>
    let keys := target.keys.map String.ofList
    if path.length < target.dots then .error .danglingReference
    else do
      let start := if target.dots = 0 then [] else path.take (path.length - target.dots)
      let found ← walk root steps true ⟨[], root⟩ (start ++ keys)
      match found with
      | none => .error .danglingReference
      | some found =>
        if found.path.isPrefixOf path then .error .circularReference else .ok found

/-- Goes along keys, following references on the way. A value still to be given is an error when `strict`. -/
def walk (root : Value) : (steps : Nat) → (strict : Bool) → Located → List String →
    Except Failure (Option Located)
  | 0, _, _, _ => .error .circularReference
  | _ + 1, _, found, [] => .ok (some found)
  | steps + 1, strict, found, key :: keys => do
    match ← part found.value key with
    | none => return none
    | some value =>
      if let .text text := value then
        if strict ∧ text = openMark then throw .openReference
      walk root steps strict (← settle root steps ⟨found.path ++ [key], value⟩) keys

end

/-- A budget for following references. -/
def budget (root : Value) : Nat := 2 * weight root + 64

/-- The value at the end of some keys, if it is there and given. -/
def select (root : Value) (keys : List String) : Except Failure (Option Located) :=
  match walk root (budget root + keys.length) false ⟨[], root⟩ keys with
  | .error .circularReference => .ok none
  | result => result.map fun found => found.filter fun found =>
    match found.value with
    | .text text => text != openMark
    | .null => false
    | _ => true

mutual

/-- Replaces all references in a value. -/
def expand (root : Value) : (steps : Nat) → Located → Except Failure Value
  | 0, _ => .error .circularReference
  | steps + 1, found => do
    let found ← settle root steps found
    match found.value with
    | .list items => return .list (← expandItems root steps found.path 0 items)
    | .record fields => return .record (← expandFields root steps found.path fields)
    | value => return value

def expandItems (root : Value) : (steps : Nat) → (path : List String) → (place : Nat) →
    List Value → Except Failure (List Value)
  | 0, _, _, _ => .error .circularReference
  | _ + 1, _, _, [] => .ok []
  | steps + 1, path, place, item :: items => do
    let item ← expand root steps ⟨path ++ [toString place], item⟩
    return item :: (← expandItems root steps path (place + 1) items)

/-- Replaces all references in the fields of a record. -/
def expandFields (root : Value) : (steps : Nat) → (path : List String) → Fields →
    Except Failure Fields
  | 0, _, _ => .error .circularReference
  | _ + 1, _, [] => .ok []
  | steps + 1, path, (name, value) :: fields => do
    let value ← expand root steps ⟨path ++ [name], value⟩
    return (name, value) :: (← expandFields root steps path fields)

end

/-- Replaces all references in a configuration. -/
def resolved (root : Value) : Except Failure Value := expand root (2 * budget root) ⟨[], root⟩

mutual

/-- Whether the references in a value follow their grammar. -/
def isWellFormed : Value → Bool
  | .text text => !hasReference text.toList || (piecesOf text.toList).isSome
  | .list items => areWellFormed items
  | .record fields => haveWellFormed fields
  | _ => true

/-- Whether the references in all values follow their grammar. -/
def areWellFormed : List Value → Bool
  | [] => true
  | item :: items => isWellFormed item && areWellFormed items

/-- Whether the references in all fields follow their grammar. -/
def haveWellFormed : Fields → Bool
  | [] => true
  | (_, value) :: fields => isWellFormed value && haveWellFormed fields

end

end GameSearch.Compose
