import TokenAccounts.Proofs.Field.Holding

/-!
# Which bytes hold which records

What holds of every field holds of a record: bytes hold a record if they are the bytes of its
fields, one after the other.  Main statements: a record is read from the bytes that hold it and
from no others; without slots those are just the bytes that are written of it; and with slots in
fields of fixed width they are so once the slots of absent values are cleared.
-/

namespace TokenAccounts

namespace Layout

variable {Description : Type} {Value : Description → Type}
variable {readField : (type : Description) → Reader (Value type)}
variable {writeField : (type : Description) → Value type → List UInt8}
variable {holds : (type : Description) → List UInt8 → Value type → Prop}
variable {property : (type : Description) → Value type → Prop}

/-- Whether bytes hold the values of the fields, one after the other. -/
def Holds (holds : (type : Description) → List UInt8 → Value type → Prop) :
    (layout : Layout Description) → List UInt8 → layout.Values Value → Prop
  | [], bytes, () => bytes = []
  | field :: rest, bytes, (value, values) =>
      ∃ front back, bytes = front ++ back ∧ holds field.type front value ∧
        Holds holds rest back values

/-- If each field is read from the bytes that hold it, so are all of them. -/
theorem run_read_eq_ok_iff
    (each : ∀ type unread value rest, (readField type).run unread = (.ok value, rest) ↔
      ∃ bytes, unread = bytes ++ rest ∧ holds type bytes value)
    (layout : Layout Description) {unread rest : List UInt8} {values : layout.Values Value} :
    (layout.read readField).run unread = (.ok values, rest) ↔
      ∃ bytes, unread = bytes ++ rest ∧ layout.Holds holds bytes values := by
  induction layout generalizing unread with
  | nil =>
      constructor
      · intro run
        rcases Reader.run_pure_eq_ok_iff.mp run with ⟨-, rfl⟩
        exact ⟨[], rfl, rfl⟩
      · intro conditions
        rcases conditions with ⟨_, rfl, rfl⟩
        exact Reader.run_pure () rest
  | cons field fields ih =>
      rcases values with ⟨value, values⟩
      constructor
      · intro run
        rcases Reader.run_bind_eq_ok_iff.mp run with ⟨first, middle, firstRead, tailRead⟩
        rcases Reader.run_bind_eq_ok_iff.mp tailRead with ⟨others, left, othersRead, ending⟩
        rcases Reader.run_pure_eq_ok_iff.mp ending with ⟨same, rfl⟩
        cases same
        rcases (each _ _ _ _).mp firstRead with ⟨front, rfl, frontHolds⟩
        rcases ih.mp othersRead with ⟨back, rfl, backHolds⟩
        exact ⟨front ++ back, by simp, front, back, rfl, frontHolds, backHolds⟩
      · intro conditions
        rcases conditions with ⟨_, rfl, front, back, rfl, frontHolds, backHolds⟩
        rw [List.append_assoc, read,
          Reader.run_bind_of_ok ((each _ _ _ _).mpr ⟨front, rfl, frontHolds⟩),
          Reader.run_bind_of_ok (ih.mpr ⟨back, rfl, backHolds⟩), Reader.run_pure]

/-- Where the bytes of every field are what is written of it, so are the bytes of all. -/
theorem Holds.eq_write {layout : Layout Description} {bytes : List UInt8}
    {values : layout.Values Value} (held : layout.Holds holds bytes values)
    (each : ∀ field ∈ layout, ∀ bytes value, holds field.type bytes value →
      bytes = writeField field.type value) :
    bytes = layout.write writeField values := by
  induction layout generalizing bytes with
  | nil => exact held
  | cons field fields ih =>
      rcases held with ⟨front, back, rfl, frontHolds, backHolds⟩
      rw [each field (by simp) _ _ frontHolds,
        ih backHolds fun field member => each field (by simp [member]), write]

theorem Holds.all {layout : Layout Description} {bytes : List UInt8}
    {values : layout.Values Value} (held : layout.Holds holds bytes values)
    (each : ∀ type bytes value, holds type bytes value → property type value) :
    layout.All property values := by
  induction layout generalizing bytes with
  | nil => trivial
  | cons field fields ih =>
      rcases held with ⟨front, back, rfl, frontHolds, backHolds⟩
      exact ⟨each _ _ _ frontHolds, ih backHolds⟩

/-! ## Clearing the slots of absent values -/

/-- The bytes of the fields with zeros in the slots of absent values.  Where a field begins is
known only behind fields of fixed width; what lies further back is left as it is. -/
def clearAbsent (clearField : Description → List UInt8 → List UInt8)
    (fieldWidth? : Description → Option Nat) : Layout Description → List UInt8 → List UInt8
  | [], bytes => bytes
  | field :: rest, bytes =>
      match fieldWidth? field.type with
      | some width =>
          clearField field.type (bytes.take width) ++
            clearAbsent clearField fieldWidth? rest (bytes.drop width)
      | none => bytes

variable {clearField : Description → List UInt8 → List UInt8}
variable {fieldWidth? : Description → Option Nat}

/-- Fields of fixed width that hold values are, once cleared, what is written of the values. -/
theorem Holds.clearAbsent_eq {layout : Layout Description} {bytes : List UInt8}
    {values : layout.Values Value} {width : Nat} (held : layout.Holds holds bytes values)
    (fixed : layout.width? fieldWidth? = some width)
    (each : ∀ type bytes value width, holds type bytes value → fieldWidth? type = some width →
      clearField type bytes = writeField type value ∧ bytes.length = width) :
    layout.clearAbsent clearField fieldWidth? bytes = layout.write writeField values ∧
      bytes.length = width := by
  induction layout generalizing bytes width with
  | nil =>
      cases fixed
      cases held
      exact ⟨rfl, rfl⟩
  | cons field fields ih =>
      simp only [width?, Option.bind_eq_bind, Option.bind_eq_some_iff, Option.some.injEq] at fixed
      rcases fixed with ⟨first, firstFixed, others, othersFixed, rfl⟩
      rcases held with ⟨front, back, rfl, frontHolds, backHolds⟩
      rcases each _ _ _ _ frontHolds firstFixed with ⟨frontCleared, frontLength⟩
      rcases ih backHolds othersFixed with ⟨backCleared, backLength⟩
      simp only [clearAbsent, firstFixed]
      rw [List.take_left' frontLength, List.drop_left' frontLength, frontCleared, backCleared,
        write]
      exact ⟨rfl, by simp [frontLength, backLength]⟩

/-! ## Changing every field -/

theorem mapValues_eq_self_iff {change : (type : Description) → Value type → Value type}
    (each : ∀ type value, change type value = value ↔ property type value)
    (layout : Layout Description) (values : layout.Values Value) :
    layout.mapValues change values = values ↔ layout.All property values := by
  induction layout with
  | nil => exact ⟨fun _ => trivial, fun _ => rfl⟩
  | cons field fields ih =>
      rcases values with ⟨value, values⟩
      simp only [mapValues, All, Prod.mk.injEq, each, ih]

/-- What follows for each field from its size follows for all from theirs together. -/
theorem all_of_size_lt {fieldSize : (type : Description) → Value type → Nat} {limit : Nat}
    (each : ∀ type value, fieldSize type value < limit → property type value)
    (layout : Layout Description) {values : layout.Values Value}
    (small : layout.size fieldSize values < limit) : layout.All property values := by
  induction layout with
  | nil => trivial
  | cons field fields ih =>
      rcases values with ⟨value, values⟩
      rw [size] at small
      exact ⟨each _ _ (by omega), ih (by omega)⟩

end Layout

namespace Format

/-- Whether a field of this format has a slot that is there also when the value is not. -/
def hasSlot : Format → Bool
  | .slotted _ => true
  | _ => false

theorem Holds.eq_write {format : Format} {bytes : List UInt8} {value : format.Value}
    (held : format.Holds bytes value) (slotless : format.hasSlot = false) :
    bytes = format.write value := by
  have cleared := held.clearAbsent_eq
  cases format with
  | slotted item => cases slotless
  | scalar | flag | accountState | nonzero | tagged | text | pairs => exact cleared

theorem Holds.length_eq {format : Format} {bytes : List UInt8} {value : format.Value}
    (held : format.Holds bytes value) {width : Nat} (fixed : format.width? = some width) :
    bytes.length = width := by
  rw [← format.length_clearAbsent, held.clearAbsent_eq, format.length_write,
    size_of_width? fixed]

/-- Every count in a table is bounded by what the rows take together. -/
theorem counts_le_rows_size (rows : List (String × String)) :
    rows.length ≤ rowsSize rows ∧
      ∀ row ∈ rows,
        row.1.utf8ByteSize ≤ rowsSize rows ∧ row.2.utf8ByteSize ≤ rowsSize rows := by
  induction rows with
  | nil => simp
  | cons first rest ih =>
      rcases ih with ⟨length, counts⟩
      simp only [List.length_cons, rowsSize, textSize] at length counts ⊢
      refine ⟨by omega, fun row member => ?_⟩
      rcases List.mem_cons.mp member with rfl | member
      · omega
      · have := counts row member
        omega

/-- A text or table that takes few bytes has a small count. -/
theorem fits_of_size_lt (format : Format) (value : format.Value)
    (small : format.size value < countLimit) : format.Fits value := by
  cases format with
  | text =>
      simp only [size, textSize] at small
      simp only [Fits]
      omega
  | pairs =>
      rcases counts_le_rows_size value with ⟨length, counts⟩
      simp only [size] at small
      refine ⟨by omega, fun row member => ?_⟩
      have := counts row member
      omega
  | scalar | flag | accountState | nonzero | tagged | slotted => trivial

end Format

namespace FieldType

/-- Whether bytes hold the value of a field. -/
def Holds : (type : FieldType) → List UInt8 → type.Value → Prop
  | .plain format => format.Holds
  | .group fields => fields.Holds Format.Holds

/-- Whether no value in a field is taken for its absence. -/
def Settled : (type : FieldType) → type.Value → Prop
  | .plain format => format.Settled
  | .group fields => fields.All Format.Settled

def hasSlot : FieldType → Bool
  | .plain format => format.hasSlot
  | .group fields => fields.any fun field => field.type.hasSlot

def clearAbsent : FieldType → List UInt8 → List UInt8
  | .plain format => format.clearAbsent
  | .group fields => fields.clearAbsent Format.clearAbsent Format.width?

theorem run_read_eq_ok_iff (type : FieldType) {unread rest : List UInt8} {value : type.Value} :
    type.read.run unread = (.ok value, rest) ↔
      ∃ bytes, unread = bytes ++ rest ∧ type.Holds bytes value := by
  cases type with
  | plain format => exact format.run_read_eq_ok_iff
  | group fields =>
      exact Layout.run_read_eq_ok_iff (fun format _ _ _ => format.run_read_eq_ok_iff) fields

theorem normalize_eq_self_iff (type : FieldType) (value : type.Value) :
    type.normalize value = value ↔ type.Settled value := by
  cases type with
  | plain format => exact format.normalize_eq_self_iff value
  | group fields => exact Layout.mapValues_eq_self_iff Format.normalize_eq_self_iff fields value

theorem fits_of_size_lt (type : FieldType) (value : type.Value)
    (small : type.size value < Format.countLimit) : type.Fits value := by
  cases type with
  | plain format => exact format.fits_of_size_lt value small
  | group fields => exact Layout.all_of_size_lt Format.fits_of_size_lt fields small

variable {type : FieldType} {bytes : List UInt8} {value : type.Value}

theorem Holds.fits (held : type.Holds bytes value) : type.Fits value := by
  cases type with
  | plain format => exact Format.Holds.fits held
  | group fields => exact Layout.Holds.all held fun _ _ _ => Format.Holds.fits

theorem Holds.settled (held : type.Holds bytes value) : type.Settled value := by
  cases type with
  | plain format => exact Format.Holds.settled held
  | group fields => exact Layout.Holds.all held fun _ _ _ => Format.Holds.settled

theorem Holds.eq_write (held : type.Holds bytes value) (slotless : type.hasSlot = false) :
    bytes = type.write value := by
  cases type with
  | plain format => exact Format.Holds.eq_write held slotless
  | group fields =>
      refine Layout.Holds.eq_write held fun field member bytes value fieldHeld => ?_
      exact fieldHeld.eq_write (by simpa using List.any_eq_false.mp slotless field member)

/-- A field of fixed width that holds a value is, once cleared, what is written of the value. -/
theorem Holds.clearAbsent_eq (held : type.Holds bytes value) {width : Nat}
    (fixed : type.width? = some width) :
    type.clearAbsent bytes = type.write value ∧ bytes.length = width := by
  cases type with
  | plain format => exact ⟨Format.Holds.clearAbsent_eq held, Format.Holds.length_eq held fixed⟩
  | group fields =>
      exact Layout.Holds.clearAbsent_eq held fixed fun _ _ _ _ fieldHeld fieldFixed =>
        ⟨fieldHeld.clearAbsent_eq, fieldHeld.length_eq fieldFixed⟩

end FieldType

namespace Record

variable {α : Type} [Record α]

/-- Whether bytes hold a record. -/
def Holds (bytes : List UInt8) (record : α) : Prop :=
  (layout α).Holds FieldType.Holds bytes (toValues record)

/-- Whether no field of a record is taken for its absence when it is read back. -/
def Settled (record : α) : Prop := (layout α).All FieldType.Settled (toValues record)

/-- The bytes of a record with zeros in the slots of absent values. -/
def clearAbsent (α : Type) [Record α] (bytes : List UInt8) : List UInt8 :=
  (layout α).clearAbsent FieldType.clearAbsent FieldType.width? bytes

/-- A record is read from the bytes that hold it, and from no others. -/
theorem run_read_eq_ok_iff {unread rest : List UInt8} {record : α} :
    (read : Reader α).run unread = (.ok record, rest) ↔
      ∃ bytes, unread = bytes ++ rest ∧ Holds bytes record := by
  have each (type : FieldType) (unread : List UInt8) (value : type.Value) (rest : List UInt8) :
      type.read.run unread = (.ok value, rest) ↔
        ∃ bytes, unread = bytes ++ rest ∧ type.Holds bytes value :=
    type.run_read_eq_ok_iff
  constructor
  · intro run
    rcases Reader.run_bind_eq_ok_iff.mp run with ⟨values, middle, valuesRead, ending⟩
    rcases Reader.run_pure_eq_ok_iff.mp ending with ⟨rfl, rfl⟩
    rcases (Layout.run_read_eq_ok_iff each _).mp valuesRead with ⟨bytes, same, held⟩
    exact ⟨bytes, same, by rwa [Holds, toValues_ofValues]⟩
  · intro conditions
    rcases conditions with ⟨bytes, rfl, held⟩
    rw [read, Reader.run_bind_of_ok ((Layout.run_read_eq_ok_iff each _).mpr ⟨bytes, rfl, held⟩),
      Reader.run_pure, ofValues_toValues]

theorem normalize_eq_self_iff (record : α) : normalize record = record ↔ Settled record := by
  have values := Layout.mapValues_eq_self_iff FieldType.normalize_eq_self_iff (layout α)
    (toValues record)
  rw [Settled, ← values]
  constructor
  · intro same
    rw [← toValues_ofValues ((layout α).mapValues _ _)]
    exact congrArg toValues same
  · intro same
    rw [normalize, same, ofValues_toValues]

/-- A record that takes few bytes has small counts. -/
theorem fits_of_size_lt (record : α) (small : size record < Format.countLimit) : Fits record :=
  Layout.all_of_size_lt FieldType.fits_of_size_lt _ small

variable {bytes : List UInt8} {record : α}

theorem Holds.fits (held : Holds bytes record) : Fits record :=
  Layout.Holds.all held fun _ _ _ => FieldType.Holds.fits

theorem Holds.settled (held : Holds bytes record) : Settled record :=
  Layout.Holds.all held fun _ _ _ => FieldType.Holds.settled

/-- Without slots, the bytes that hold a record are what is written of it. -/
theorem Holds.eq_write (held : Holds bytes record)
    (slotless : ∀ field ∈ layout α, field.type.hasSlot = false) : bytes = write record :=
  Layout.Holds.eq_write held fun field member _ _ fieldHeld =>
    fieldHeld.eq_write (slotless field member)

/-- Without slots, just what is written of a record is read as the record, if it can be read back as
it is. -/
theorem run_read_eq_ok_iff_of_slotless (slotless : ∀ field ∈ layout α, field.type.hasSlot = false)
    {unread rest : List UInt8} :
    (read : Reader α).run unread = (.ok record, rest) ↔
      unread = write record ++ rest ∧ Fits record ∧ Settled record := by
  constructor
  · intro run
    rcases run_read_eq_ok_iff.mp run with ⟨bytes, rfl, held⟩
    exact ⟨by rw [held.eq_write slotless], held.fits, held.settled⟩
  · intro conditions
    rcases conditions with ⟨rfl, fits, settled⟩
    rw [run_read_append record fits, (normalize_eq_self_iff record).mpr settled]

/-- Bytes that hold a record of fixed width are, once cleared, what is written of it. -/
theorem Holds.clearAbsent_eq (held : Holds bytes record) {width : Nat}
    (fixed : width? α = some width) :
    clearAbsent α bytes = write record ∧ bytes.length = width :=
  Layout.Holds.clearAbsent_eq held fixed fun _ _ _ _ fieldHeld fieldFixed =>
    fieldHeld.clearAbsent_eq fieldFixed

end Record

end TokenAccounts
