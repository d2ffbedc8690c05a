import GameSearch.Text.Digit

/-!
# Arguments and options

The arguments of a program are a fixed number of positional ones and options that start with dashes. An option is
written in full or by a start that no other option shares, and its value follows it or an equals sign. Arguments
that look like negative numbers, and all after two dashes, are no options. The two dashes must touch a positional
argument.
-/

namespace GameSearch.CommandLine

/-- How many values an option has. -/
inductive Arity where
  | none
  | one
  | several
  /-- The option asks for help and ends the program. -/
  | help
  deriving DecidableEq, Repr

/-- An option of a program. -/
structure Switch where
  name : String
  arity : Arity
  /-- Whether a text is a value of the switch. -/
  accepts : String → Bool

/-- Why the arguments do not run a program. -/
inductive Stop where
  | misused
  | helped
  deriving DecidableEq, Repr

/-- Arguments as they are understood. -/
structure Given where
  positional : List String
  /-- Options with their values, in order. -/
  options : List (String × List String)

/-- The values of an option; the last one given counts. -/
def Given.values? (given : Given) (name : String) : Option (List String) :=
  given.options.reverse.lookup name

def Given.value? (given : Given) (name : String) : Option String :=
  (given.values? name).bind List.head?

/-- What an argument is taken for. -/
inductive Role where
  | value
  | switch (switch : Switch) (attached : Option String)
  | unknown
  | separator

/-- Whether an argument looks like a negative number. -/
def looksNegative : List Char → Bool
  | '-' :: rest =>
    let isDecimal (char : Char) : Bool := (Text.digitValue? char).isSome
    let whole := rest.takeWhile isDecimal
    match rest.dropWhile isDecimal with
    | [] => !whole.isEmpty
    | '.' :: fraction => !fraction.isEmpty && fraction.all isDecimal
    | _ => false
  | _ => false

/-- Splits an argument at its first equals sign. -/
def splitAttached (text : List Char) : List Char × Option String :=
  let name := text.takeWhile (· != '=')
  (name, if name.length < text.length then some (String.ofList (text.drop (name.length + 1)))
    else none)

/-- What an argument before the separator is taken for. -/
def roleOf (switches : List Switch) (text : String) : Except Stop Role :=
  let chars := text.toList
  let (start, attached) := splitAttached chars
  if chars.head? ≠ some '-' ∨ chars.length = 1 then .ok .value
  else match switches.find? fun switch => switch.name.toList == chars with
    | some switch => .ok (.switch switch none)
    | none =>
      match switches.find? fun switch => switch.name.toList == start with
      | some switch => .ok (.switch switch attached)
      | none =>
        let isLong := "--".toList.isPrefixOf chars
        match switches.filter fun switch => isLong && start.isPrefixOf switch.name.toList with
        | [switch] => .ok (.switch switch attached)
        | _ :: _ :: _ => .error .misused
        | [] =>
          if looksNegative chars || ' ' ∈ chars then .ok .value else .ok .unknown

/-- What all arguments are taken for. -/
def rolesOf (switches : List Switch) : List String → Except Stop (List (String × Role))
  | [] => .ok []
  | "--" :: rest => .ok (("--", .separator) :: rest.map fun text => (text, .value))
  | text :: rest => do
    let role ← roleOf switches text
    return (text, role) :: (← rolesOf switches rest)

/-- The values directly ahead. -/
def valuesAhead : List (String × Role) → List String
  | (text, .value) :: rest => text :: valuesAhead rest
  | _ => []

def takeValues (switch : Switch) (attached : Option String) (rest : List (String × Role)) :
    Except Stop (List String) :=
  let values := match switch.arity, attached with
    | .one, some value => some [value]
    | .several, some value => some [value]
    | .one, none => (valuesAhead rest).head?.map fun value => [value]
    | .several, none => some (valuesAhead rest)
    | _, some _ => none
    | _, none => some []
  match values with
  | none => .error .misused
  | some values =>
    if (switch.arity = .several ∧ values = []) ∨ !values.all switch.accepts then .error .misused
    else .ok values

/-- What follows a separator directly ahead, or everything if there is none. -/
def afterSeparator : List (String × Role) → List (String × Role)
  | (_, .separator) :: rest => rest
  | rest => rest

/-- Goes through arguments, of which `wanted` are still to be positional. -/
def gather : (steps : Nat) → (wanted : Nat) → (isWrong : Bool) → Given →
    List (String × Role) → Except Stop Given
  | 0, _, _, _, _ => .error .misused
  | _ + 1, wanted, isWrong, given, [] =>
    if wanted ≠ 0 ∨ isWrong then .error .misused else .ok given
  | steps + 1, wanted, isWrong, given, (text, role) :: rest =>
    match role with
    | .value =>
      if wanted = 0 then gather steps 0 true given rest
      else gather steps (wanted - 1) isWrong
        { given with positional := given.positional ++ [text] } (afterSeparator rest)
    | .separator => gather steps wanted (isWrong || wanted = 0) given rest
    | .unknown => gather steps wanted true given rest
    | .switch switch attached =>
      if switch.arity = .help ∧ attached.isNone then .error .helped
      else do
        let values ← takeValues switch attached rest
        let taken := if attached.isNone then values.length else 0
        gather steps wanted isWrong
          { given with options := given.options ++ [(switch.name, values)] } (rest.drop taken)

/-- Understands the arguments of a program. -/
def understand (wanted : Nat) (switches : List Switch) (arguments : List String) :
    Except Stop Given := do
  let roles ← rolesOf switches arguments
  gather (roles.length + 1) wanted false ⟨[], []⟩ roles

/-- The option that asks for help, in both its forms. -/
def helpOptions : List Switch :=
  [⟨"-h", .help, fun _ => true⟩, ⟨"--help", .help, fun _ => true⟩]

end GameSearch.CommandLine
