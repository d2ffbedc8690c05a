import GameSearch.Path

/-!
# Where a configuration is

A configuration is named by its path. Paths below the common directory `configs` are names relative to it, which
may go through further directories; any other path is a directory and the name of a file in it.
-/

namespace GameSearch.Config

/-- The directory of configurations and the name of one in it. -/
structure Location where
  directory : String
  name : String
  deriving DecidableEq, Repr

namespace Location

def commonDirectory : String := "configs"

/-- The directory that holds the file of a path, a dot if that directory has no name. -/
def directoryOf (path : Path) : String :=
  if path.parent.name.isEmpty then "." else path.parent.text

def ofPath (path : Path) : Except Fault Location := do
  let bare ← path.withSuffix ""
  let start := (commonDirectory ++ "/").toList
  if start.isPrefixOf bare.text.toList then
    return ⟨commonDirectory, String.ofList (bare.text.toList.drop start.length)⟩
  else return ⟨directoryOf path, path.stem⟩

end Location

end GameSearch.Config
