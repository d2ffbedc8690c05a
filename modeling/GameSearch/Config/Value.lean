import GameSearch.Number

/-!
# Configuration values

The data that configurations are written in: scalars, lists, and records whose fields keep their order.
-/

namespace GameSearch.Config

/-- A piece of configuration. -/
inductive Value where
  | null
  | bool (value : Bool)
  | number (value : Number)
  | text (value : String)
  | list (items : List Value)
  | record (fields : List (String × Value))
  deriving Inhabited

/-- Named values of any kind, in order. -/
abbrev Entries (Raw : Type) := List (String × Raw)

def Entries.get? {Raw : Type} (entries : Entries Raw) (name : String) : Option Raw :=
  (entries.find? fun entry => entry.1 == name).map (·.2)

/-- The fields of a record, in order. -/
abbrev Fields := Entries Value

/-- Gives a field a value, in its place if it is already there and at the end if not. -/
def Fields.set (fields : Fields) (name : String) (value : Value) : Fields :=
  if fields.any fun field => field.1 == name then
    fields.map fun field => if field.1 == name then (name, value) else field
  else fields ++ [(name, value)]

/-- Drops a field. -/
def Fields.erase (fields : Fields) (name : String) : Fields :=
  fields.filter fun field => field.1 != name

/-- The value of an optional integer. -/
def Value.ofOptionalInt : Option Int → Value
  | none => .null
  | some value => .number (.int value)

end GameSearch.Config
