import GameSearch.Config.Scalar
import GameSearch.Proofs.Config.Buildable
import GameSearch.Proofs.Text.Trimming

/-!
# Lawful readers

Libraries differ in what they take for an integer, a text or a record. What a configuration relies on
is that a library trims the texts it reads, and that it reads a value which is plainly an integer, a
text or a record as just this. These laws carry over to the readers of optional values, lists and
fields. The reader of configuration values keeps them.
-/

namespace GameSearch

/-- Whether a double stands for a number. -/
def Double.IsFinite (value : Float) : Prop := ∃ number, Extent.ofFloat value = .finite number

namespace Config

variable {Raw α : Type} {reader : Reader Raw} {plain : Value → Raw}

/-- The laws of a library that is given some values as `plain` presents them. -/
structure Reader.Lawful (reader : Reader Raw) (plain : Value → Raw) : Prop where
  /-- A text that has been read has no white space at either end. -/
  trimmed_of_text : ∀ raw text, reader.text raw = .ok text →
    Text.Trimmed Text.isSpace text.toList
  text_plain : ∀ text : String, Text.Trimmed Text.isSpace text.toList →
    reader.text (plain (.text text)) = .ok text
  word?_plain : ∀ word, reader.word? (plain (.text word)) = some word
  integer_plain : ∀ number, reader.integer (plain (.number (.int number))) = .ok number
  double_plain : ∀ value, Double.IsFinite value →
    reader.double (plain (.number (.real value))) = .ok value
  bool_plain : ∀ value, reader.bool (plain (.bool value)) = .ok value
  isNull_null : reader.isNull (plain .null) = true
  isNull_int : ∀ number, reader.isNull (plain (.number (.int number))) = false
  items_plain : ∀ items, reader.items (plain (.list items)) = .ok (items.map plain)
  /-- A record whose fields have distinct names is read with all of them, in order. -/
  entries_plain : ∀ cause (fields : Fields), (fields.map (·.1)).Nodup →
    reader.entries cause (plain (.record fields)) =
      .ok (fields.map fun field => (field.1, plain field.2))

namespace Reader.Lawful

theorem positive_plain (lawful : reader.Lawful plain) {number : Int} (positive : 1 ≤ number) :
    reader.positive (plain (.number (.int number))) = .ok number :=
  Checked.require_eq_ok.mpr ⟨lawful.integer_plain number, decide_eq_true positive⟩

theorem optional_plain (lawful : reader.Lawful plain) {number? : Option Int}
    (positive : ∀ number, number? = some number → 1 ≤ number) :
    reader.optional reader.positive (plain (.ofOptionalInt number?)) = .ok number? := by
  cases number? with
  | none => exact if_pos lawful.isNull_null
  | some number =>
      have given : reader.isNull (plain (.number (.int number))) ≠ true := by
        simp [lawful.isNull_int]
      rw [optional, Value.ofOptionalInt, if_neg given]
      exact Checked.map_eq_ok.mpr ⟨number, lawful.positive_plain (positive number rfl), rfl⟩

/-- A list is read item by item. -/
theorem list_plain (lawful : reader.Lawful plain) {read : Raw → Checked α} {dump : α → Value}
    {items : List α} {least : Nat} (each : ∀ item ∈ items, read (plain (dump item)) = .ok item)
    (enough : least ≤ items.length) :
    reader.list least read (plain (.list (items.map dump))) = .ok items := by
  refine list_eq_ok.mpr ⟨_, lawful.items_plain (items.map dump), ?_, enough⟩
  have all_read : ∀ start, Checked.all ((((items.map dump).map plain).zipIdx start).map
      fun item => (read item.1).under (.index item.2)) = .ok items := by
    clear enough
    induction items with
    | nil => exact fun start => rfl
    | cons item items ih =>
        intro start
        rw [List.forall_mem_cons] at each
        exact Checked.both_eq_ok.mpr
          ⟨item, items, Checked.under_eq_ok.mpr each.1, ih each.2 (start + 1), rfl⟩
  exact all_read 0

end Reader.Lawful

/-- A field is presented along with its record. -/
theorem Entries.get?_plain (plain : Value → Raw) (fields : Fields) (name : String) :
    Entries.get? (fields.map fun field => (field.1, plain field.2)) name =
      (fields.get? name).map plain := by
  rw [get?, get?, List.find?_map, Option.map_map, Option.map_map]
  rfl

theorem Entries.read_plain {fields : Fields} {name : String} {default? : Option α}
    {read : Raw → Checked α} {given : Value} {value : α} (found : fields.get? name = some given)
    (accepted : read (plain given) = .ok value) :
    Entries.read (fields.map fun field => (field.1, plain field.2)) name default? read =
      .ok value := by
  refine read_eq_ok.mpr (.inl ⟨plain given, ?_, accepted⟩)
  rw [get?_plain, found]
  rfl

theorem Value.asText_eq_ok {value : Value} {text : String} : value.asText = .ok text ↔
    ∃ content, value = .text content ∧ text = Text.trimSpace content := by
  cases value <;> simp [asText, Checked.refuse, eq_comm]

theorem Reader.lawful_lax : Reader.lax.Lawful id where
  trimmed_of_text := by
    intro value text accepted
    rcases Value.asText_eq_ok.mp accepted with ⟨content, -, rfl⟩
    rw [Text.trimSpace, String.toList_ofList]
    exact Text.trimmed_trimBy Text.isSpace content.toList
  text_plain := by
    intro text trimmed
    refine Value.asText_eq_ok.mpr ⟨text, rfl, ?_⟩
    rw [Text.trimSpace, trimmed.trimBy_eq, String.ofList_toList]
  word?_plain _ := rfl
  integer_plain _ := rfl
  double_plain _ _ := rfl
  bool_plain _ := rfl
  isNull_null := rfl
  isNull_int _ := rfl
  items_plain items := by
    rw [List.map_id]
    rfl
  entries_plain cause fields _ := by
    simp only [id, List.map_id']
    rfl

end Config

end GameSearch
