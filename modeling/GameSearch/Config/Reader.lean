import GameSearch.Config.Problem

/-!
# Readers

A configuration is read by a library, which knows what raw values there are and which of them it takes for
an integer, a text or a record, be it in another guise. What a configuration demands of the values
that it has been given does not depend on the library, and is stated on top of it.
-/

namespace GameSearch.Config

/-- What a library takes raw values for. -/
structure Reader (Raw : Type) where
  integer : Raw → Checked Int
  double : Raw → Checked Float
  bool : Raw → Checked Bool
  /-- A text, without the white space around it. -/
  text : Raw → Checked String
  /-- A text as it stands. -/
  word? : Raw → Option String
  isNull : Raw → Bool
  items : Raw → Checked (List Raw)
  /-- The entries of a record; the cause is given for anything else. -/
  entries : Cause → Raw → Checked (Entries Raw)

namespace Reader

variable {Raw α : Type} (reader : Reader Raw)

/-- Reads what `read` accepts, or nothing. -/
def optional (read : Raw → Checked α) (raw : Raw) : Checked (Option α) :=
  if reader.isNull raw then .ok none else (read raw).map some

/-- Reads a list of at least `least` items. -/
def list (least : Nat) (read : Raw → Checked α) (raw : Raw) : Checked (List α) :=
  match reader.items raw with
  | .error problems => .error problems
  | .ok items =>
    (Checked.all (items.zipIdx.map fun item => (read item.1).under (.index item.2))).require
      (least ≤ ·.length) fun _ => .tooShort

/-- Reads an integer that is at least one. -/
def positive (raw : Raw) : Checked Int :=
  (reader.integer raw).require (1 ≤ ·) fun _ => .greaterThanEqual

/-- Reads one given word. -/
def literal (word : String) (raw : Raw) : Checked Unit :=
  if reader.word? raw = some word then .ok () else Checked.refuse .literalError

end Reader

end GameSearch.Config
