import GameSearch.Compose.Override
import GameSearch.Compose.Source

/-!
# What a configuration is built from

A configuration is built from the parts that its defaults list asks for, their own defaults lists included. A part
is a file and the package that its values are placed in: the one asked for, or else the one that the file names, or
else the directories that lead to it. A file comes after what it builds on, unless it gives its own place.

Later lists are gone through first, so that what they switch holds for the earlier ones.
-/

namespace GameSearch.Compose

open Config (Value)

/-- Where a file is asked for, and from where. -/
structure Wanted where
  /-- Whether the group starts at the top rather than where the asking file is. -/
  absolute : Bool
  /-- The directories that are asked for. -/
  group : String
  name : String
  package : Option String
  /-- The directories of the asking file. -/
  parentGroup : String
  /-- The package of the asking file. -/
  parentPackage : String

/-- Joins two texts by a separator, unless one is empty. -/
def joinBy (separator first second : String) : String :=
  if first.isEmpty then second
  else if second.isEmpty then first
  else first ++ separator ++ second

/-- Writes dots for the slashes of a path. -/
def dotted (path : String) : String :=
  String.ofList (path.toList.map fun char => if char = '/' then '.' else char)

/-- Puts one text for another wherever it stands. -/
def substitute (old new : List Char) : (steps : Nat) → List Char → List Char
  | 0, chars => chars
  | _ + 1, [] => []
  | steps + 1, char :: rest =>
    if !old.isEmpty && old.isPrefixOf (char :: rest) then
      new ++ substitute old new steps ((char :: rest).drop old.length)
    else char :: substitute old new steps rest

/-- Puts one text for another wherever it stands. -/
def substituted (old new text : String) : String :=
  String.ofList (substitute old.toList new.toList text.length text.toList)

/-- What follows the last mark of the top, or everything if there is none. -/
def afterTop : List Char → List Char
  | [] => []
  | char :: rest =>
    let mark := "_global_".toList
    let later := afterTop rest
    if later.length < rest.length ∨ mark.isPrefixOf rest then later
    else if mark.isPrefixOf (char :: rest) then (char :: rest).drop (mark.length + 1)
    else char :: later

namespace Wanted

/-- The file of a path. -/
def ofPath (path : String) (package : Option String) (parentGroup parentPackage : String) : Wanted :=
  let chars := path.toList
  let absolute := chars.head? == some '/'
  let chars := if absolute then chars.drop 1 else chars
  let name := (chars.reverse.takeWhile (· != '/')).reverse
  let group := chars.take (chars.length - name.length - 1)
  ⟨absolute, String.ofList group, String.ofList name, package, parentGroup, parentPackage⟩

/-- The directories from the top. -/
def groupPath (wanted : Wanted) : String :=
  if wanted.absolute then wanted.group else joinBy "/" wanted.parentGroup wanted.group

/-- The name from the top. -/
def path (wanted : Wanted) : String := joinBy "/" wanted.groupPath wanted.name

/-- The package, counted from the top. -/
def fullPackage (wanted : Wanted) (package : Option String) : String :=
  let own := substituted "_name_" wanted.name (package.getD (dotted wanted.group))
  let full := joinBy "." wanted.parentPackage own
  String.ofList (afterTop full.toList)

/-- What a group is called when another option of it is asked for. -/
def key (wanted : Wanted) : String :=
  let package := wanted.fullPackage wanted.package
  if package = dotted wanted.groupPath then wanted.groupPath
  else wanted.groupPath ++ "@" ++ (if package.isEmpty then "_global_" else package)

/-- The package named in front of a file, as far as it counts. -/
def headed (wanted : Wanted) (header : Option String) : Option String :=
  header.bind fun header =>
    if header = "_group_" then none
    else some (substituted "_group_" (dotted wanted.groupPath) header)

end Wanted

/-- A file that a configuration is built from. -/
structure Part where
  name : String
  package : String
  /-- The group that the file is an option of, if it was asked for as one. -/
  group : Option String

/-- The options that are asked for from outside or by other files, and which of them have been met. -/
structure Choices where
  chosen : List (String × Choice)
  dropped : List (String × Option String)
  met : List String

/-- A search for parts. -/
abbrev Search := StateT Choices (Except Failure)

/-- Notes that a wish about a group was met. -/
def meet (key : String) : Search Unit :=
  modify fun choices => { choices with met := key :: choices.met }

/-- The option of a group that counts, or nothing if the group is dropped. -/
def choiceOf (key : String) (asked : Choice) : Search Choice := do
  let choices ← get
  let chosen ← match choices.chosen.lookup key with
    | none => pure asked
    | some chosen => do
      meet key
      pure chosen
  match choices.dropped.lookup key with
  | none => return chosen
  | some none => do
    meet ("~" ++ key)
    return .nothing
  | some (some name) =>
    if chosen = .one name then do
      meet ("~" ++ key)
      return .nothing
    else return chosen

/-- Notes which options the entries of a list switch to; nothing else may follow these entries. -/
def switchFrom (parentGroup parentPackage : String) :
    (switched : Bool) → List Default → Search Unit
  | _, [] => return
  | switched, entry :: entries =>
    match entry.request with
    | .itself => switchFrom parentGroup parentPackage switched entries
    | .switch group chosen => do
      let wanted := Wanted.ofPath (group ++ "/") entry.package parentGroup parentPackage
      modify fun choices =>
        if (choices.chosen.lookup wanted.key).isSome then choices
        else { choices with chosen := choices.chosen ++ [(wanted.key, chosen)] }
      switchFrom parentGroup parentPackage true entries
    | _ =>
      if switched then throw .conflict
      else switchFrom parentGroup parentPackage switched entries

/-- The defaults list with the file's own place in it. -/
def withPlace (entries : List Default) : Except Failure (List Default) :=
  let places := entries.filter fun entry => entry.request == .itself
  if 1 < places.length then .error .conflict
  else if places.isEmpty then .ok (entries ++ [⟨.itself, none, false⟩])
  else .ok entries

mutual

/-- The parts that a file and its defaults list ask for. -/
def partsOf (find : String → Except Failure (Option Source)) (added : List Default) :
    (steps : Nat) → Wanted → (optional : Bool) → (group : Option String) → Search (List Part)
  | 0, _, _, _ => throw .endless
  | steps + 1, wanted, optional, group => do
    match ← find wanted.path with
    | none => if optional then return [] else throw .notFound
    | some source =>
      let package := wanted.fullPackage (wanted.package <|> wanted.headed source.package)
      let entries ← (withPlace source.defaults : Except Failure _)
      switchFrom wanted.groupPath package false entries
      partsOfEntries find steps ⟨wanted.path, package, group⟩ wanted.groupPath
        (entries ++ added).reverse

/-- The parts of the entries of a file's list, which come the last first. -/
def partsOfEntries (find : String → Except Failure (Option Source)) :
    (steps : Nat) → (itself : Part) → (parentGroup : String) → List Default →
      Search (List Part)
  | 0, _, _, _ => throw .endless
  | _ + 1, _, _, [] => return []
  | steps + 1, itself, parentGroup, entry :: entries => do
    let own ← match entry.request with
      | .itself => pure [itself]
      | .switch .. => pure []
      | .file path =>
        partsOf find [] steps (.ofPath path entry.package parentGroup itself.package)
          entry.optional none
      | .choice group chosen =>
        let wanted := Wanted.ofPath (group ++ "/") entry.package parentGroup itself.package
        match ← choiceOf wanted.key chosen with
        | .nothing => pure []
        | .one name =>
          if name = openMark then throw .conflict
          else partsOf find [] steps { wanted with name } entry.optional (some wanted.key)
        | .many names =>
          partsOfFiles find steps entry.optional
            (names.reverse.map fun name =>
              .ofPath (group ++ "/" ++ name) entry.package parentGroup itself.package)
    return (← partsOfEntries find steps itself parentGroup entries) ++ own

/-- The parts of several files, which come the last first. -/
def partsOfFiles (find : String → Except Failure (Option Source)) :
    (steps : Nat) → (optional : Bool) → List Wanted → Search (List Part)
  | 0, _, _ => throw .endless
  | _ + 1, _, [] => return []
  | steps + 1, optional, wanted :: others => do
    let own ← partsOf find [] steps wanted optional none
    return (← partsOfFiles find steps optional others) ++ own

end

/-- Whether a group is asked for twice. -/
def hasRepeatedGroup : List Part → Bool
  | [] => false
  | found :: others =>
    (found.group.isSome && others.any (·.group == found.group)) || hasRepeatedGroup others

/-- The parts of a configuration, in the order in which they are merged. -/
def partsFrom (find : String → Except Failure (Option Source)) (steps : Nat) (name : String)
    (choices : Choices) (added : List Default) : Except Failure (List Part) := do
  let (parts, after) ← (partsOf find added steps (.ofPath name none "" "") false none).run choices
  let isMet (key : String) : Bool := after.met.contains key
  if hasRepeatedGroup parts then throw .conflict
  else if !after.chosen.all (fun choice => isMet choice.1) then throw .conflict
  else if !after.dropped.all (fun drop => isMet ("~" ++ drop.1)) then throw .conflict
  else return parts

end GameSearch.Compose
