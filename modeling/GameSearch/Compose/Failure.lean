import GameSearch.Yaml.Cursor

/-!
# Why a configuration cannot be composed
-/

namespace GameSearch.Compose

/-- Why a configuration cannot be composed. -/
inductive Failure where
  /-- A directory, a file or an option does not exist. -/
  | notFound
  /-- The parts do not fit together. -/
  | conflict
  /-- An override does not follow its grammar. -/
  | malformedOverride
  /-- A reference to nothing. -/
  | danglingReference
  /-- A reference to a value that is still to be given. -/
  | openReference
  /-- A reference that leads back to itself, or through something that has no parts. -/
  | circularReference
  /-- A defaults list that leads back to itself. -/
  | endless
  /-- A reference that asks for a function. -/
  | unknownFunction
  /-- A file is no document. -/
  | document (flaw : Yaml.Flaw)
  /-- A file holds nothing but a number or a truth value. -/
  | bareScalar
  /-- An entry is not of the kind that is wanted, with an account of it. -/
  | invalid (account : String)
  deriving DecidableEq, Repr

end GameSearch.Compose
