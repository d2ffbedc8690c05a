import GameSearch.Fault

/-!
# Paths

A path is a chain of names, read from a text by purely lexical rules: runs of slashes count once, and names that
are a single dot are dropped, but a name of two dots stays. An absolute path starts with a slash; exactly two
slashes in front are kept apart from one.

The last name of a path may have a suffix, from its last dot on. A dot at either end of a name starts no suffix.
-/

namespace GameSearch

/-- A chain of names, relative or absolute. -/
structure Path where
  /-- How many slashes are in front. -/
  slashes : Nat
  names : List String
  deriving DecidableEq, Repr

/-- The pieces of a text between slashes. -/
def Path.pieces : List Char → List (List Char)
  | [] => [[]]
  | '/' :: rest => [] :: pieces rest
  | char :: rest =>
    match pieces rest with
    | [] => [[char]]
    | piece :: others => (char :: piece) :: others

/-- Two slashes in front are kept, any other run of slashes counts once. -/
def Path.countSlashes (chars : List Char) : Nat :=
  let count := (chars.takeWhile (· == '/')).length
  if count = 2 then 2 else Nat.min count 1

def Path.isName (piece : List Char) : Bool :=
  piece != [] && piece != ['.']

def Path.ofText (text : String) : Path :=
  ⟨countSlashes text.toList, ((pieces text.toList).filter isName).map String.ofList⟩

/-- Splits a name before its last dot, unless that is at either end. -/
def Path.splitSuffix (name : List Char) : List Char × List Char :=
  let ending := (name.reverse.takeWhile (· != '.')).reverse
  let start := (name.reverse.dropWhile (· != '.')).reverse.dropLast
  if start.isEmpty || ending.isEmpty then (name, []) else (start, '.' :: ending)

namespace Path

/-- The path as a text; a path without names and slashes is a dot. -/
def text (path : Path) : String :=
  let written := String.ofList (List.replicate path.slashes '/') ++ "/".intercalate path.names
  if written.isEmpty then "." else written

/-- Whether a path starts at the root. -/
def isAbsolute (path : Path) : Bool := path.slashes != 0

/-- The last name, empty if there is none. -/
def name (path : Path) : String := path.names.getLast?.getD ""

/-- The path without its last name. -/
def parent (path : Path) : Path := { path with names := path.names.dropLast }

/-- The last name without its suffix. -/
def stem (path : Path) : String := String.ofList (splitSuffix path.name.toList).1

/-- Gives the last name another suffix. -/
def withSuffix (path : Path) (suffix : String) : Except Fault Path :=
  if path.names.isEmpty then .error (.namelessPath path.text)
  else .ok { path with names := path.names.dropLast ++ [path.stem ++ suffix] }

/-- The path that starts at another one, unless it is absolute itself. -/
def join (path other : Path) : Path :=
  if other.isAbsolute then other else { path with names := path.names ++ other.names }

end Path

end GameSearch
