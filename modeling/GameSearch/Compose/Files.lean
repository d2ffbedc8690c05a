import GameSearch.Path

/-!
# A tree of text files

The files that are known, by the names on the way to them: from the working directory, or from the root, which then
is the first name. Directories exist where there are files in them, and the working directory always does. A name of
two dots leads out of a directory, but not out of the working directory.
-/

namespace GameSearch.Compose

/-- Text files and the names on the way to them. -/
structure Files where
  entries : List (List String × String)

namespace Files

def rootName : String := "/"

/-- The names on the way that a path describes. -/
def namesOf (path : Path) : List String :=
  if path.isAbsolute then rootName :: path.names else path.names

/-- The files with their paths. -/
def ofList (files : List (String × String)) : Files :=
  ⟨files.map fun (path, text) => (namesOf (.ofText path), text)⟩

def isDirectory (files : Files) (names : List String) : Bool :=
  names.isEmpty ||
    files.entries.any fun entry => names.isPrefixOf entry.1 && entry.1.length != names.length

def text? (files : Files) (names : List String) : Option String :=
  (files.entries.find? fun entry => entry.1 == names).map (·.2)

def hasEntry (files : Files) (names : List String) : Bool :=
  files.isDirectory names || (files.text? names).isSome

/-- The directory around a place, if it is known. -/
def outOf (here : List String) : Option (List String) :=
  if here.isEmpty then none else if here == [rootName] then some here else some here.dropLast

/-- Goes from a directory along names, all of which must exist. -/
def locate (files : Files) (start names : List String) : Option (List String) :=
  names.foldlM (fun here name =>
    if !files.isDirectory here then none
    else if name == ".." then outOf here
    else if files.hasEntry (here ++ [name]) then some (here ++ [name])
    else none) start

/-- The directory of a path, whether it exists or not. -/
def directory (path : Path) : Option (List String) :=
  (namesOf path).foldlM (fun here name =>
    if name == ".." then outOf here else some (here ++ [name])) []

/-- Whether a path leads to something. -/
def hasPath (files : Files) (path : Path) : Bool := (files.locate [] (namesOf path)).isSome

end Files

end GameSearch.Compose
