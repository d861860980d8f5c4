import TokenAccounts.Field.Format

/-!
# Record layouts

A layout lists the named fields of a record in the order in which they lie in bytes.  Everything
that is done to a record (reading, writing, measuring, comparing) is done to the product of its
field values, once for all records.  The functions are generic in what describes a field, because
a record may have a smaller record as one of its fields.
-/

namespace TokenAccounts

/-- A named place in a record. -/
structure Field (Description : Type) where
  name : String
  type : Description
  deriving DecidableEq, Repr

/-- The fields of a record, in order. -/
abbrev Layout (Description : Type) := List (Field Description)

namespace Layout

variable {Description : Type} {Value : Description → Type}

/-- One value for every field. -/
@[reducible] def Values (Value : Description → Type) : Layout Description → Type
  | [] => Unit
  | field :: rest => Value field.type × Values Value rest

/-- Read the fields one after the other, up to the first failure. -/
def read (readField : (type : Description) → Reader (Value type)) :
    (layout : Layout Description) → Reader (layout.Values Value)
  | [] => pure ()
  | field :: rest => do
      let value ← readField field.type
      let values ← read readField rest
      pure (value, values)

/-- The bytes of the fields, one after the other. -/
def write (writeField : (type : Description) → Value type → List UInt8) :
    (layout : Layout Description) → layout.Values Value → List UInt8
  | [], () => []
  | field :: rest, (value, values) => writeField field.type value ++ write writeField rest values

/-- How many bytes the fields take together. -/
def size (fieldSize : (type : Description) → Value type → Nat) :
    (layout : Layout Description) → layout.Values Value → Nat
  | [], () => 0
  | field :: rest, (value, values) => fieldSize field.type value + size fieldSize rest values

/-- How many bytes the fields always take together, if each always takes as many. -/
def width? (fieldWidth? : Description → Option Nat) : Layout Description → Option Nat
  | [] => some 0
  | field :: rest => do
      let first ← fieldWidth? field.type
      let others ← width? fieldWidth? rest
      some (first + others)

/-- Change every field value. -/
def mapValues (change : (type : Description) → Value type → Value type) :
    (layout : Layout Description) → layout.Values Value → layout.Values Value
  | [], () => ()
  | field :: rest, (value, values) => (change field.type value, mapValues change rest values)

/-- Whether two records agree field by field. -/
def agree (agreeField : (type : Description) → Value type → Value type → Bool) :
    (layout : Layout Description) → layout.Values Value → layout.Values Value → Bool
  | [], (), () => true
  | field :: rest, (left, lefts), (right, rights) =>
      agreeField field.type left right && agree agreeField rest lefts rights

/-- The fields under their names, each value in some other form. -/
def toNamed {Form : Type} (encode : (type : Description) → Value type → Form) :
    (layout : Layout Description) → layout.Values Value → List (String × Form)
  | [], () => []
  | field :: rest, (value, values) =>
      (field.name, encode field.type value) :: toNamed encode rest values

/-- The values of fields given in some other form, in order. -/
def ofForms? {Form : Type} (decode? : (type : Description) → Form → Option (Value type)) :
    (layout : Layout Description) → List Form → Option (layout.Values Value)
  | [], [] => some ()
  | field :: rest, form :: others => do
      let value ← decode? field.type form
      let values ← ofForms? decode? rest others
      some (value, values)
  | _, _ => none

/-- Whether every field value has a property. -/
def All (property : (type : Description) → Value type → Prop) :
    (layout : Layout Description) → layout.Values Value → Prop
  | [], () => True
  | field :: rest, (value, values) => property field.type value ∧ All property rest values

theorem length_write {writeField : (type : Description) → Value type → List UInt8}
    {fieldSize : (type : Description) → Value type → Nat}
    (exact : ∀ type value, (writeField type value).length = fieldSize type value)
    (layout : Layout Description) (values : layout.Values Value) :
    (layout.write writeField values).length = layout.size fieldSize values := by
  induction layout with
  | nil => rfl
  | cons field rest ih => simp [write, size, exact, ih]

theorem size_of_width? {fieldSize : (type : Description) → Value type → Nat}
    {fieldWidth? : Description → Option Nat}
    (exact : ∀ type width, fieldWidth? type = some width → ∀ value, fieldSize type value = width)
    {layout : Layout Description} {width : Nat} (fixed : layout.width? fieldWidth? = some width)
    (values : layout.Values Value) : layout.size fieldSize values = width := by
  induction layout generalizing width with
  | nil => simpa [width?, size] using fixed
  | cons field rest ih =>
      simp only [width?, Option.bind_eq_bind, Option.bind_eq_some_iff, Option.some.injEq] at fixed
      obtain ⟨first, firstFixed, others, othersFixed, rfl⟩ := fixed
      simp [size, exact _ _ firstFixed, ih othersFixed]

/-- If each field is read back as some change of it, so is the record. -/
theorem run_read_append {readField : (type : Description) → Reader (Value type)}
    {writeField : (type : Description) → Value type → List UInt8}
    {change : (type : Description) → Value type → Value type}
    {property : (type : Description) → Value type → Prop}
    (inverse : ∀ type value, property type value → ∀ rest,
      (readField type).run (writeField type value ++ rest) = (.ok (change type value), rest))
    (layout : Layout Description) (values : layout.Values Value)
    (fits : layout.All property values) (rest : List UInt8) :
    (layout.read readField).run (layout.write writeField values ++ rest) =
      (.ok (layout.mapValues change values), rest) := by
  induction layout with
  | nil => rfl
  | cons field fields ih =>
      rw [read, write, List.append_assoc, Reader.run_bind_of_ok (inverse _ _ fits.1 _),
        Reader.run_bind_of_ok (ih values.2 fits.2)]
      rfl

end Layout

/-- What a field of a record is: a plain value, or a small record of plain values. -/
inductive FieldType where
  | plain (format : Format)
  | group (fields : Layout Format)
  deriving DecidableEq, Repr

namespace FieldType

/-- What a field of this type holds. -/
@[reducible] def Value : FieldType → Type
  | .plain format => format.Value
  | .group fields => fields.Values Format.Value

def read : (type : FieldType) → Reader type.Value
  | .plain format => format.read
  | .group fields => fields.read Format.read

def write : (type : FieldType) → type.Value → List UInt8
  | .plain format, value => format.write value
  | .group fields, values => fields.write Format.write values

def size : (type : FieldType) → type.Value → Nat
  | .plain format, value => format.size value
  | .group fields, values => fields.size Format.size values

def width? : FieldType → Option Nat
  | .plain format => format.width?
  | .group fields => fields.width? Format.width?

def normalize : (type : FieldType) → type.Value → type.Value
  | .plain format, value => format.normalize value
  | .group fields, values => fields.mapValues Format.normalize values

def agree : (type : FieldType) → type.Value → type.Value → Bool
  | .plain format, left, right => format.agree left right
  | .group fields, left, right => fields.agree Format.agree left right

def Fits : (type : FieldType) → type.Value → Prop
  | .plain format, value => format.Fits value
  | .group fields, values => fields.All Format.Fits values

theorem length_write (type : FieldType) (value : type.Value) :
    (type.write value).length = type.size value := by
  cases type with
  | plain format => exact format.length_write value
  | group fields => exact Layout.length_write Format.length_write fields value

theorem size_of_width? {type : FieldType} {width : Nat} (fixed : type.width? = some width)
    (value : type.Value) : type.size value = width := by
  cases type with
  | plain format => exact Format.size_of_width? fixed value
  | group fields =>
      exact Layout.size_of_width? (fun _ _ fixed => Format.size_of_width? fixed) fixed value

theorem run_read_append (type : FieldType) (value : type.Value) (fits : type.Fits value)
    (rest : List UInt8) :
    type.read.run (type.write value ++ rest) = (.ok (type.normalize value), rest) := by
  cases type with
  | plain format => exact format.run_read_append value fits rest
  | group fields => exact Layout.run_read_append Format.run_read_append fields value fits rest

end FieldType

/-- A plain field. -/
abbrev Field.plain (name : String) (format : Format) : Field FieldType := ⟨name, .plain format⟩

/-- A field that is a small record. -/
abbrev Field.group (name : String) (fields : Layout Format) : Field FieldType :=
  ⟨name, .group fields⟩

/-- A structure that is the product of the fields of a layout. -/
class Record (α : Type) where
  layout : Layout FieldType
  toValues : α → layout.Values FieldType.Value
  ofValues : layout.Values FieldType.Value → α
  ofValues_toValues : ∀ record, ofValues (toValues record) = record
  toValues_ofValues : ∀ values, toValues (ofValues values) = values

namespace Record

variable {α : Type} [Record α]

attribute [simp] ofValues_toValues toValues_ofValues

/-- Read a record from the front of the unread bytes. -/
def read : Reader α := do
  let values ← (layout α).read FieldType.read
  pure (ofValues values)

/-- The bytes of a record. -/
def write (record : α) : List UInt8 := (layout α).write FieldType.write (toValues record)

/-- How many bytes a record takes. -/
def size (record : α) : Nat := (layout α).size FieldType.size (toValues record)

/-- How many bytes every record of this type takes, if all take the same. -/
def width? (α : Type) [Record α] : Option Nat := (layout α).width? FieldType.width?

/-- A record as it is read back. -/
def normalize (record : α) : α :=
  ofValues ((layout α).mapValues FieldType.normalize (toValues record))

/-- Whether two records are equal where numbers are compared as numbers. -/
def agree (left right : α) : Bool :=
  (layout α).agree FieldType.agree (toValues left) (toValues right)

/-- Whether every text and table of a record fits the count in front of it. -/
def Fits (record : α) : Prop := (layout α).All FieldType.Fits (toValues record)

@[simp] theorem length_write (record : α) : (write record).length = size record :=
  Layout.length_write FieldType.length_write _ _

theorem size_of_width? {width : Nat} (fixed : width? α = some width) (record : α) :
    size record = width :=
  Layout.size_of_width? (fun _ _ fixed => FieldType.size_of_width? fixed) fixed _

/-- Written and read back, a record is its normal form, and what follows is left alone. -/
theorem run_read_append (record : α) (fits : Fits record) (rest : List UInt8) :
    (read : Reader α).run (write record ++ rest) = (.ok (normalize record), rest) := by
  rw [read, write, Reader.run_bind_of_ok
    (Layout.run_read_append FieldType.run_read_append _ _ fits rest), Reader.run_pure, normalize]

end Record

end TokenAccounts
