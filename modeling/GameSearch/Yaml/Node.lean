import GameSearch.Yaml.Scalar

/-!
# Nodes of a document

A document is a tree of scalars, sequences and mappings. Structure comes from indentation in block style and from
brackets in flow style; both may be mixed, but not blocks inside brackets. A node may be anchored and then
repeated by an alias, and it may carry a tag. Reading is by recursive descent from a `Cursor`, with a count of steps
that the length of the text bounds.
-/

namespace GameSearch.Yaml

/-- A node of a document. -/
inductive Node where
  /-- A text. A plain one may stand for another value, depending on how it looks. -/
  | scalar (text : String) (plain : Bool) (tag : Option String)
  | list (items : List Node) (tag : Option String)
  | mapping (entries : List (Node × Node)) (tag : Option String)
  deriving Inhabited

/-- A node of which nothing is written. -/
def Node.absent : Node := .scalar "" true none

/-- Gives a node a tag, if there is one to give. -/
def Node.tagged (node : Node) (given : Option String) : Node :=
  match given, node with
  | none, node => node
  | some _, .scalar text plain _ => .scalar text plain given
  | some _, .list items _ => .list items given
  | some _, .mapping entries _ => .mapping entries given

/-- Where reading is, and the anchored nodes so far. -/
structure Source where
  cursor : Cursor
  anchors : List (String × Node)

/-- A reading that may fail. -/
abbrev Reading := StateT Source (Except Flaw)

namespace Reading

def cursor : Reading Cursor := return (← get).cursor

/-- Goes on reading elsewhere. -/
def moveTo (cursor : Cursor) : Reading Unit :=
  modify fun source => { source with cursor }

/-- Passes blanks, line breaks and comments up to the next token. -/
def skip : Reading Cursor := do
  let after := (← cursor).skip
  moveTo after
  return after

def fail {α : Type} (flaw : Flaw) : Reading α := throw flaw

/-- Gives up at what should not stand here. -/
def unexpected {α : Type} (found : Cursor) : Reading α :=
  fail (match found.peek with
    | some char => if char ∈ ['\t', '@', '`', '%'] then .token else .layout
    | none => .layout)

/-- Passes a name after an indicator. -/
def takeName (inName : Char → Bool) : Reading String := do
  let start := (← cursor).next
  let name := start.run inName
  moveTo (start.drop name.length)
  return String.ofList name

end Reading

/-- What may stand before a node. -/
structure Properties where
  anchor : Option String
  tag : Option String

def isAnchorChar (char : Char) : Bool := char.isAlphanum || char == '-' || char == '_'

def readAnchorName : Reading String := do
  let name ← Reading.takeName isAnchorChar
  let after ← Reading.cursor
  if name.isEmpty then Reading.fail .token
  if isGap after.peek || after.peek.any fun char => "?:,]\x7d%@`".toList.contains char then
    return name
  Reading.fail .token

/-- Reads the properties before a node; each may be given once. -/
def readProperties : (steps : Nat) → Properties → Reading Properties
  | 0, properties => return properties
  | steps + 1, properties => do
    let start ← Reading.cursor
    if start.peek == some '&' && properties.anchor.isNone then
      let name ← readAnchorName
      if ((← get).anchors.lookup name).isSome then Reading.fail .reference
      let _ ← Reading.skip
      readProperties steps { properties with anchor := some name }
    else if start.peek == some '!' && properties.tag.isNone then
      let name ← Reading.takeName fun char => !isGap (some char) && !isFlowIndicator char
      let _ ← Reading.skip
      readProperties steps { properties with tag := some name }
    else return properties

/-- Gives a node its properties. -/
def settle (properties : Properties) (node : Node) : Reading Node := do
  let node := node.tagged properties.tag
  match properties.anchor with
  | none => return node
  | some name =>
    modify fun source => { source with anchors := (name, node) :: source.anchors }
    return node

/-- Reads the node that an alias repeats. -/
def readAlias : Reading Node := do
  let name ← readAnchorName
  match (← get).anchors.lookup name with
  | some node => return node
  | none => Reading.fail .reference

/-- Reads a quoted or plain scalar. Later lines of a plain one are indented more than column `parent`. -/
def readScalar (flow : Bool) (parent : Int) : Reading Node := do
  let start ← Reading.cursor
  match start.peek with
  | some '\'' =>
    let (text, after) ← (readQuoted '\'' start : Except Flaw _)
    Reading.moveTo after
    return .scalar text false none
  | some '"' =>
    let (text, after) ← (readQuoted '"' start : Except Flaw _)
    Reading.moveTo after
    return .scalar text false none
  | _ =>
    if startsPlain flow start then
      let (text, after) := readPlain flow (parent + 1).toNat start
      Reading.moveTo after
      return .scalar text true none
    else Reading.unexpected start

/-- Whether a colon on line `line` makes what was read before it a key. -/
def Cursor.atColon (cursor : Cursor) (flow : Bool) (line : Nat) : Bool :=
  cursor.line == line && (if flow then cursor.peek == some ':' else cursor.atIndicator ':')

mutual

/-- Reads a node inside brackets. -/
def readFlow : (steps : Nat) → Reading Node
  | 0 => Reading.fail .layout
  | steps + 1 => do
    let start ← Reading.skip
    let properties ← readProperties 2 ⟨none, none⟩
    let start' ← Reading.cursor
    match start'.peek with
    | some '[' =>
      Reading.moveTo start'.next
      settle properties (.list (← readFlowItems steps) none)
    | some '\x7b' =>
      Reading.moveTo start'.next
      settle properties (.mapping (← readFlowEntries steps) none)
    | some '*' => readAlias
    | found =>
      let isBare := start.column ≠ start'.column ∨ start.line ≠ start'.line
      if isBare ∧ found.any (fun char => ",:]\x7d".toList.contains char) then
        settle properties .absent
      else settle properties (← readScalar true 0)

/-- Reads what follows a colon inside brackets. -/
def readFlowValue : (steps : Nat) → Reading Node
  | 0 => Reading.fail .layout
  | steps + 1 => do
    let start ← Reading.skip
    if start.peek.any fun char => ",]\x7d".toList.contains char then return .absent
    else readFlow steps

/-- Reads the items of a list up to its closing bracket. -/
def readFlowItems : (steps : Nat) → Reading (List Node)
  | 0 => Reading.fail .layout
  | steps + 1 => do
    let start ← Reading.skip
    if start.peek == some ']' then
      Reading.moveTo start.next
      return []
    let item ← readFlow steps
    let after ← Reading.skip
    let item ←
      if after.atColon true start.line then do
        Reading.moveTo after.next
        pure (.mapping [(item, ← readFlowValue steps)] none)
      else pure item
    let after ← Reading.skip
    if after.peek == some ',' then
      Reading.moveTo after.next
      return item :: (← readFlowItems steps)
    else if after.peek == some ']' then
      Reading.moveTo after.next
      return [item]
    else Reading.unexpected after

/-- Reads the entries of a mapping up to its closing brace. -/
def readFlowEntries : (steps : Nat) → Reading (List (Node × Node))
  | 0 => Reading.fail .layout
  | steps + 1 => do
    let start ← Reading.skip
    if start.peek == some '\x7d' then
      Reading.moveTo start.next
      return []
    let key ← readFlow steps
    let after ← Reading.skip
    let value ←
      if after.atColon true start.line then do
        Reading.moveTo after.next
        readFlowValue steps
      else pure .absent
    let after ← Reading.skip
    if after.peek == some ',' then
      Reading.moveTo after.next
      return (key, value) :: (← readFlowEntries steps)
    else if after.peek == some '\x7d' then
      Reading.moveTo after.next
      return [(key, value)]
    else Reading.unexpected after

end

/-- Reads a node that can stand on one line: in brackets, an alias or a scalar. -/
def readInline (steps : Nat) (parent : Int) : Reading Node := do
  match (← Reading.cursor).peek with
  | some '[' => readFlow steps
  | some '\x7b' => readFlow steps
  | some '*' => readAlias
  | _ => readScalar false parent

/-- Where a block node may stand. -/
structure Place where
  /-- The column of the block that the node belongs to. -/
  parent : Int
  /-- Whether a mapping or sequence may start on this line. -/
  opensBlock : Bool
  /-- Whether a sequence may stand at the parent's own column. -/
  besideParent : Bool

/-- Whether nothing that belongs to a place stands at a cursor. -/
def Place.isLeft (place : Place) (cursor : Cursor) : Bool :=
  cursor.atEnd || (cursor.column ≤ place.parent &&
    !(place.besideParent && cursor.column == place.parent && cursor.atIndicator '-'))

mutual

def readBlock : (steps : Nat) → Place → Reading Node
  | 0, _ => Reading.fail .layout
  | steps + 1, place => do
    let before ← Reading.cursor
    let start ← Reading.skip
    let place := { place with opensBlock := place.opensBlock || before.line != start.line }
    if place.isLeft start then return .absent
    let properties ← readProperties 2 ⟨none, none⟩
    let content ← Reading.cursor
    if start.line ≠ content.line then
      settle properties (← readBlock steps { place with opensBlock := true })
    else
      let isBare := start.column = content.column
      if content.atEnd then settle properties .absent
      else if content.atIndicator '-' || content.atIndicator '?' || content.atIndicator ':' then
        if place.opensBlock && isBare then
          if content.atIndicator '-' then return .list (← readItems steps content.column) none
          else return .mapping (← readEntries steps content.column) none
        else Reading.fail .token
      else if content.peek == some '|' || content.peek == some '>' then
        let (text, after) ← (readBlockScalar place.parent content : Except Flaw _)
        Reading.moveTo after
        settle properties (.scalar text false none)
      else
        let node ← readInline steps place.parent
        let after := (← Reading.cursor).dropBlanks
        if after.atIndicator ':' then
          if place.opensBlock && after.line == start.line then
            let key ← settle properties node
            Reading.moveTo after.next
            return .mapping (← readEntriesAfterKey steps start.column key) none
          else Reading.fail .token
        else settle properties node

/-- Reads the items of a sequence at a column. -/
def readItems : (steps : Nat) → (column : Nat) → Reading (List Node)
  | 0, _ => Reading.fail .layout
  | steps + 1, column => do
    let start ← Reading.skip
    if start.atEnd || start.column < column then return []
    else if column < start.column then Reading.unexpected start
    else if start.atIndicator '-' then
      Reading.moveTo start.next
      let item ← readBlock steps ⟨column, true, false⟩
      return item :: (← readItems steps column)
    else return []

/-- Reads the entries of a mapping at a column. -/
def readEntries : (steps : Nat) → (column : Nat) → Reading (List (Node × Node))
  | 0, _ => Reading.fail .layout
  | steps + 1, column => do
    let start ← Reading.skip
    if start.atEnd || start.column < column then return []
    else if column < start.column || start.atIndicator '-' then Reading.unexpected start
    else if start.atIndicator '?' then
      Reading.moveTo start.next
      let key ← readBlock steps ⟨column, true, true⟩
      let after ← Reading.skip
      if after.column = column ∧ after.atIndicator ':' then
        Reading.moveTo after.next
        let value ← readBlock steps ⟨column, true, true⟩
        return (key, value) :: (← readEntries steps column)
      else return (key, .absent) :: (← readEntries steps column)
    else if start.atIndicator ':' then
      Reading.moveTo start.next
      readEntriesAfterKey steps column .absent
    else
      let properties ← readProperties 2 ⟨none, none⟩
      let key ← settle properties (← readInline steps column)
      let after := (← Reading.cursor).dropBlanks
      if after.atColon false start.line then
        Reading.moveTo after.next
        readEntriesAfterKey steps column key
      else Reading.fail .token

/-- Reads the value of a key whose colon has been passed, and the entries after that. -/
def readEntriesAfterKey :
    (steps : Nat) → (column : Nat) → (key : Node) → Reading (List (Node × Node))
  | 0, _, _ => Reading.fail .layout
  | steps + 1, column, key => do
    let value ← readBlock steps ⟨column, false, true⟩
    return (key, value) :: (← readEntries steps column)

end

/-- Passes the directives before a document and the mark that starts it. -/
def readStart : (steps : Nat) → Reading Unit
  | 0 => Reading.fail .layout
  | steps + 1 => do
    let start ← Reading.skip
    if start.column = 0 ∧ start.peek = some '%' then
      Reading.moveTo (start.dropRun (· != '\n'))
      let after ← Reading.skip
      if after.atStart ∨ after.peek = some '%' then readStart steps
      else Reading.fail .layout
    else if start.atStart then Reading.moveTo (start.drop 3)

/-- Checks that nothing follows a document. -/
def readEnd : (steps : Nat) → Reading Unit
  | 0 => Reading.fail .layout
  | steps + 1 => do
    let after ← Reading.skip
    if after.rest.isEmpty then return
    else if after.atStart then Reading.fail .reference
    else if after.atEnd then
      Reading.moveTo (after.drop 3)
      let next ← Reading.skip
      if next.rest.isEmpty then return
      else if next.atEnd then readEnd steps
      else Reading.fail .reference
    else Reading.unexpected after

/-- Reads a document, which may be empty. -/
def readDocument (text : String) : Except Flaw Node := do
  let start := Cursor.ofText text
  let steps := 4 * start.rest.length + 8
  let reading : Reading Node := do
    readStart steps
    let node ← readBlock steps ⟨-1, true, false⟩
    readEnd steps
    return node
  return (← reading.run ⟨start, []⟩).1

end GameSearch.Yaml
