import GameSearch.Compose.Files
import GameSearch.Compose.Reference
import GameSearch.Text.Blank
import GameSearch.Yaml.Document

/-!
# Files of a configuration

A file holds a record of values. In front of it comments may name the package that its values belong to, and its
field `defaults` lists what the file builds on: other files, options of groups, and the file's own place among them.
-/

namespace GameSearch.Compose

open Config (Entries Fields Value)

/-- What is chosen from a group. -/
inductive Choice where
  | nothing
  | one (name : String)
  | many (names : List String)
  deriving DecidableEq, Repr

/-- What an entry of a defaults list asks for. -/
inductive Request where
  /-- The file that holds the list. -/
  | itself
  /-- Another file. -/
  | file (path : String)
  /-- An option of a group. -/
  | choice (group : String) (chosen : Choice)
  /-- Another option of a group that is asked for elsewhere. -/
  | switch (group : String) (chosen : Choice)
  deriving DecidableEq, Repr

/-- An entry of a defaults list. -/
structure Default where
  request : Request
  package : Option String
  /-- Whether what is asked for may be absent. -/
  optional : Bool
  deriving DecidableEq, Repr

/-- The word that stands for the file itself. -/
def itselfWord : String := "_self_"

/-- Splits a text at the first character of a kind. -/
def splitFirst (separator : Char) (text : String) : String × Option String :=
  let start := text.toList.takeWhile (· != separator)
  (String.ofList start,
    if start.length < text.length then some (String.ofList (text.toList.drop (start.length + 1)))
    else none)

/-- The package of an entry, from what follows its at sign. -/
def entryPackage (placed : Option String) : Option String :=
  placed.map fun package => (splitFirst ':' package).1

/-- The words of a text, separated by blanks. -/
def blankWords (text : String) : List String :=
  let step (word : Char) (words : List (List Char)) : List (List Char) :=
    if word = ' ' then [] :: words
    else match words with
      | [] => [[word]]
      | first :: others => (word :: first) :: others
  (text.toList.foldr step [[]]).map String.ofList

def kindName : Value → String
  | .null => "NoneType"
  | .bool _ => "bool"
  | .number (.int _) => "int"
  | .number (.real _) => "float"
  | .text _ => "str"
  | .list _ => "list"
  | .record _ => "mapping"

/-- What the value beside a group's name chooses. -/
def Choice.ofValue : Value → Except Failure Choice
  | .null => .ok .nothing
  | .text name => .ok (.one name)
  | .list names => do
    let names ← names.mapM fun
      | .text name => .ok name
      | value => .error (.invalid ("Unsupported item value in defaults : " ++ kindName value ++
          ", nested list items must be strings"))
    return .many names
  | value => .error (.invalid ("Unsupported item value in defaults : " ++ kindName value ++
      ". Supported: string or list"))

/-- Reads an entry of a defaults list. -/
def Default.ofValue (file : String) : Value → Except Failure Default
  | .text text =>
    let (path, placed) := splitFirst '@' text
    .ok ⟨if path = itselfWord then .itself else .file path, entryPackage placed, false⟩
  | .record [(key, value)] => do
    let (start, placed) := splitFirst '@' key
    let words := blankWords start
    let keywords := words.dropLast.takeWhile fun word => word == "optional" || word == "override"
    let group := words.getLast?.getD ""
    let chosen ← Choice.ofValue value
    let request := if "override" ∈ keywords then .switch group chosen else .choice group chosen
    return ⟨request, entryPackage placed, "optional" ∈ keywords⟩
  | .record [] => .error (.invalid ("In " ++ file ++ ": Missing group name in " ++ wording (.record [])))
  | .record fields =>
    .error (.invalid ("In " ++ file ++ ": Too many keys in default item " ++ wording (.record fields)))
  | value => .error (.invalid ("Unsupported type in defaults : " ++ kindName value))

/-- A file of a configuration. -/
structure Source where
  /-- The package named in front of the values. -/
  package : Option String
  defaults : List Default
  content : Value

def lines (text : String) : List (List Char) :=
  text.toList.foldr (fun char lines =>
    if char = '\n' then [] :: lines
    else match lines with
      | [] => [[char]]
      | line :: others => (char :: line) :: others) [[]]

/-- The package that the comments in front of a file name. Such a comment holds a key, which starts
with an at sign, and a value; the first line of another form ends the search. -/
def headerPackage : List (List Char) → Except Failure (Option String)
  | [] => .ok none
  | line :: others =>
    let line := Text.trimBy Text.isBlank line
    if line.isEmpty then headerPackage others
    else
      let body := Text.trimBy Text.isBlank (line.dropWhile (· == '#'))
      if line.head? ≠ some '#' ∨ (line.drop 1 |>.dropWhile Text.isBlank).head? ≠ some '@' then
        .ok none
      else match blankWords (String.ofList body) with
        | [key, value] => do
          let later ← headerPackage others
          return if key = "@package" then later <|> some value else later
        | [_] => .error (.invalid ("Expected header format: VALUE, got '" ++
            String.ofList body ++ "'"))
        | _ => .error (.invalid ("Too many components in '" ++ String.ofList body ++ "'"))

/-- How much of a file is searched for comments in front. -/
def headerLength : Nat := 512

/-- The value of a document. A text stands for a document of its own, or for the name of an empty field. -/
def contentOf (text : String) : Except Failure Value :=
  let readText (text : String) : Except Failure Value := (Yaml.read text).mapError .document
  do
    match ← readText text with
    | .null => return .record []
    | .text inner =>
      match ← readText inner with
      | .null => return .record []
      | .text name => return .record [(name, .null)]
      | .list items => return .list items
      | .record fields => return .record fields
      | _ => throw .bareScalar
    | .list items => return .list items
    | .record fields => return .record fields
    | _ => throw .bareScalar

/-- Reads a file, which goes by a name. -/
def Source.read (name text : String) : Except Failure Source := do
  let package ← headerPackage (lines (String.ofList (text.toList.take headerLength)))
  let content ← contentOf text
  if !isWellFormed content then throw .conflict
  match content with
  | .record fields =>
    let content := Value.record (Fields.erase fields "defaults")
    match (Entries.get? fields "defaults").getD (.list []) with
    | .list entries => return ⟨package, ← entries.mapM (Default.ofValue name), content⟩
    | value =>
      throw (.invalid ("Invalid defaults list in '" ++ name ++ "', expected a list and got " ++
        kindName value ++ "."))
  | _ => return ⟨package, [], content⟩

/-- The names of the options that a choice asks for. -/
def Choice.names : Choice → List String
  | .nothing => []
  | .one name => [name]
  | .many names => names

/-- The files that a defaults list mentions, by their names as they are given. -/
def Source.mentioned (source : Source) : List String :=
  source.defaults.flatMap fun entry =>
    match entry.request with
    | .itself => []
    | .file path => [path]
    | .choice group chosen => chosen.names.map fun name => group ++ "/" ++ name
    | .switch group chosen => chosen.names.map fun name => group ++ "/" ++ name

/-- The end of the name of every file. -/
def extension : String := ".yaml"

/-- The source of a name in a directory. -/
def Source.find (files : Files) (directory : List String) (name : String) :
    Except Failure (Option Source) :=
  let file := if name.endsWith extension then name else name ++ extension
  match (files.locate directory (Path.ofText file).names).bind files.text? with
  | none => .ok none
  | some text => do return some (← Source.read name text)

end GameSearch.Compose
