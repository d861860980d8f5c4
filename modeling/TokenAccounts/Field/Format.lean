import TokenAccounts.Bytes.Text
import TokenAccounts.Field.Scalar

/-!
# Field formats

A format says what a field holds and how it lies in bytes: a scalar, a byte with few admitted
values, an optional value in one of three layouts, or a text or table with its count in front.
-/

namespace TokenAccounts

/-- How one field is laid out. -/
inductive Format where
  | scalar (item : Scalar)
  /-- A byte that is 0 or 1. -/
  | flag
  /-- A byte that is the code of an account state. -/
  | accountState
  /-- A byte string that is absent when it is all zero. -/
  | nonzero (kind : BlobKind)
  /-- A tag byte, and the value after it only when it is present. -/
  | tagged (item : Scalar)
  /-- A tag of four bytes and a slot for the value, which is there also when the value is not. -/
  | slotted (item : Scalar)
  /-- UTF-8 with its length in four bytes in front. -/
  | text
  /-- A table of texts with the number of its rows in four bytes in front. -/
  | pairs
  deriving DecidableEq, Repr

abbrev Scalar.address : Scalar := .blob .address

namespace Format

abbrev u8 : Format := .scalar .u8
abbrev u16 : Format := .scalar .u16
abbrev u64 : Format := .scalar .u64
abbrev i16 : Format := .scalar .i16
abbrev i64 : Format := .scalar .i64
abbrev float64 : Format := .scalar .float64
abbrev blob (kind : BlobKind) : Format := .scalar (.blob kind)

/-- What a field of this format holds. -/
@[reducible] def Value : Format → Type
  | .scalar item => item.Value
  | .flag => Bool
  | .accountState => AccountState
  | .nonzero kind => Option (Blob kind)
  | .tagged item => Option item.Value
  | .slotted item => Option item.Value
  | .text => String
  | .pairs => List (String × String)

instance : (format : Format) → DecidableEq format.Value
  | .scalar item => inferInstanceAs (DecidableEq item.Value)
  | .flag => inferInstanceAs (DecidableEq Bool)
  | .accountState => inferInstanceAs (DecidableEq AccountState)
  | .nonzero kind => inferInstanceAs (DecidableEq (Option (Blob kind)))
  | .tagged item => inferInstanceAs (DecidableEq (Option item.Value))
  | .slotted item => inferInstanceAs (DecidableEq (Option item.Value))
  | .text => inferInstanceAs (DecidableEq String)
  | .pairs => inferInstanceAs (DecidableEq (List (String × String)))

/-! ## Writing -/

/-- A text with its length in front. -/
def writeText (text : String) : List UInt8 :=
  littleEndian 4 text.utf8ByteSize ++ utf8Bytes text

/-- One row of a table. -/
def writePair (pair : String × String) : List UInt8 :=
  writeText pair.1 ++ writeText pair.2

/-- The bytes of a value. -/
def write : (format : Format) → format.Value → List UInt8
  | .scalar item, value => item.write value
  | .flag, value => [if value then 1 else 0]
  | .accountState, value => [value.code]
  | .nonzero kind, value => (value.getD (.zero kind)).bytes
  | .tagged _, none => [0]
  | .tagged item, some value => 1 :: item.write value
  | .slotted item, none => littleEndian 4 0 ++ List.replicate item.width 0
  | .slotted item, some value => littleEndian 4 1 ++ item.write value
  | .text, value => writeText value
  | .pairs, value => littleEndian 4 value.length ++ value.flatMap writePair

/-- How many bytes every value of this format takes, if all take the same. -/
def width? : Format → Option Nat
  | .scalar item => some item.width
  | .flag => some 1
  | .accountState => some 1
  | .nonzero kind => some kind.width
  | .tagged _ => none
  | .slotted item => some (4 + item.width)
  | .text => none
  | .pairs => none

/-- How many bytes a text takes with its length in front. -/
def textSize (text : String) : Nat := 4 + text.utf8ByteSize

/-- How many bytes the rows of a table take. -/
def rowsSize : List (String × String) → Nat
  | [] => 0
  | row :: rest => textSize row.1 + textSize row.2 + rowsSize rest

/-- How many bytes a value takes. -/
def size : (format : Format) → format.Value → Nat
  | .scalar item, _ => item.width
  | .flag, _ => 1
  | .accountState, _ => 1
  | .nonzero kind, _ => kind.width
  | .tagged _, none => 1
  | .tagged item, some _ => 1 + item.width
  | .slotted item, _ => 4 + item.width
  | .text, value => textSize value
  | .pairs, value => 4 + rowsSize value

@[simp] theorem length_writeText (text : String) : (writeText text).length = textSize text := by
  simp [writeText, textSize]

theorem length_flatMap_writePair (rows : List (String × String)) :
    (rows.flatMap writePair).length = rowsSize rows := by
  induction rows with
  | nil => rfl
  | cons row rest ih =>
      rw [List.flatMap_cons, List.length_append, ih, rowsSize, writePair, List.length_append,
        length_writeText, length_writeText]

/-- A value is as long as it is said to be. -/
@[simp] theorem length_write (format : Format) (value : format.Value) :
    (format.write value).length = format.size value := by
  cases format with
  | scalar item => exact item.length_write value
  | flag => rfl
  | accountState => rfl
  | nonzero kind => simp [write, size]
  | tagged item => cases value <;> simp [write, size, Nat.add_comm]
  | slotted item => cases value <;> simp [write, size]
  | text => simp [write, size]
  | pairs =>
      rw [write, List.length_append, length_littleEndian, length_flatMap_writePair, size]

/-- Where all values of a format are equally long, each is that long. -/
theorem size_of_width? {format : Format} {width : Nat} (fixed : format.width? = some width)
    (value : format.Value) : format.size value = width := by
  cases format <;> simp_all [width?, size]

/-! ## Reading -/

/-- A tag that is neither 0 nor 1 is refused. -/
def readOption {α : Type} (tag : UInt32) (absent present : Reader α) : Reader α :=
  if tag = 0 then absent
  else if tag = 1 then present
  else Reader.fail (.invalidOptionDiscriminant tag)

@[simp] theorem readOption_zero {α : Type} (absent present : Reader α) :
    readOption 0 absent present = absent := rfl

@[simp] theorem readOption_one {α : Type} (absent present : Reader α) :
    readOption 1 absent present = present := rfl

/-- The bytes of a text; nothing is consumed if the length or the bytes are cut short. -/
def readTextBytes : Reader (List UInt8) := Reader.orRestore do
  let length ← Scalar.u32.read
  let bytes ← Reader.take length.toNat
  pure bytes.val

/-- A text with its length in front; bytes that are not UTF-8 are consumed nevertheless. -/
def readText : Reader String := do
  let bytes ← readTextBytes
  match ofUtf8Bytes? bytes with
  | some value => pure value
  | none => Reader.fail .invalidUtf8

/-- One row of a table. -/
def readPair : Reader (String × String) := do
  let key ← readText
  let value ← readText
  pure (key, value)

/-- Read a value. -/
def read : (format : Format) → Reader format.Value
  | .scalar item => item.read
  | .flag => do
      let byte ← Scalar.u8.read
      if byte = 0 then pure false
      else if byte = 1 then pure true
      else Reader.fail (.invalidBool byte)
  | .accountState => do
      let byte ← Scalar.u8.read
      match AccountState.ofCode? byte with
      | some state => pure state
      | none => Reader.fail (.invalidAccountState byte)
  | .nonzero kind => do
      let blob ← (Scalar.blob kind).read
      pure (if blob.isZero then none else some blob)
  | .tagged item => Reader.orRestore do
      let tag ← Scalar.u8.read
      readOption tag.toUInt32 (pure none) (do
        let value ← item.read
        pure (some value))
  | .slotted item => Reader.orRestore do
      let tag ← Scalar.u32.read
      let value ← item.read
      readOption tag (pure none) (pure (some value))
  | .text => readText
  | .pairs => do
      let count ← Scalar.u32.read
      Reader.times readPair count.toNat

/-! ## Optional values on their own -/

/-- The bytes of a value with a tag byte in front, or of the tag alone. -/
def encodeOption (item : Scalar) (value : Option item.Value) : List UInt8 :=
  (tagged item).write value

/-- The optional value at the front of data, and how many bytes it takes. -/
def decodeOption (item : Scalar) (data : List UInt8) : Except Error (Option item.Value × Nat) :=
  let (outcome, next) := (Cursor.start data).read (tagged item).read
  outcome.map fun value => (value, next.offset)

/-! ## Values that read back as others -/

/-- A value as it is read back: an optional byte string of zeros comes back absent. -/
def normalize : (format : Format) → format.Value → format.Value
  | .nonzero _, value => value.filter fun blob => !blob.isZero
  | .scalar _, value => value
  | .flag, value => value
  | .accountState, value => value
  | .tagged _, value => value
  | .slotted _, value => value
  | .text, value => value
  | .pairs, value => value

/-- The first count that has no place in four bytes. -/
def countLimit : Nat := limit 4

/-- Whether a value fits the counts that are written in front of it. -/
def Fits : (format : Format) → format.Value → Prop
  | .text, value => value.utf8ByteSize < countLimit
  | .pairs, value => value.length < countLimit ∧
      ∀ pair ∈ value, pair.1.utf8ByteSize < countLimit ∧ pair.2.utf8ByteSize < countLimit
  | .scalar _, _ => True
  | .flag, _ => True
  | .accountState, _ => True
  | .nonzero _, _ => True
  | .tagged _, _ => True
  | .slotted _, _ => True

/-! ## Reading back what was written -/

theorem toNat_ofNat_of_lt_countLimit {count : Nat} (small : count < countLimit) :
    (UInt32.ofNat count).toNat = count :=
  UInt32.toNat_ofNat_of_lt' small

theorem run_read_count {count : Nat} (small : count < countLimit) (rest : List UInt8) :
    Scalar.u32.read.run (littleEndian 4 count ++ rest) = (.ok (UInt32.ofNat count), rest) := by
  have written := Scalar.run_read_append .u32 (UInt32.ofNat count) rest
  rwa [Scalar.write, toNat_ofNat_of_lt_countLimit small] at written

theorem run_readText_append {text : String} (small : text.utf8ByteSize < countLimit)
    (rest : List UInt8) : readText.run (writeText text ++ rest) = (.ok text, rest) := by
  have bytes : readTextBytes.run (writeText text ++ rest) = (.ok (utf8Bytes text), rest) := by
    apply Reader.run_orRestore_of_ok
    have width : (utf8Bytes text).length = (UInt32.ofNat text.utf8ByteSize).toNat :=
      (toNat_ofNat_of_lt_countLimit small).symm
    rw [writeText, List.append_assoc, Reader.run_bind_of_ok (run_read_count small _),
      Reader.run_bind_of_ok (Reader.run_take_append ⟨_, width⟩ rest), Reader.run_pure]
  rw [readText, Reader.run_bind_of_ok bytes]
  simp

/-- Written and read back, a value is its normal form, and what follows is left alone. -/
theorem run_read_append (format : Format) (value : format.Value) (fits : format.Fits value)
    (rest : List UInt8) :
    format.read.run (format.write value ++ rest) = (.ok (format.normalize value), rest) := by
  cases format with
  | scalar item => exact item.run_read_append value rest
  | flag => cases value <;> rfl
  | accountState => cases value <;> rfl
  | nonzero kind =>
      have slot := Scalar.run_read_append (.blob kind) (value.getD (.zero kind)) rest
      refine (Reader.run_bind_of_ok slot).trans ?_
      cases value with
      | none => simp [normalize]
      | some present =>
          by_cases absent : present = .zero kind
          · simp [normalize, Option.filter, absent]
          · have present_ne : present.isZero = false := by
              simpa [← Bool.not_eq_true] using absent
            simp [normalize, Option.filter, present_ne]
  | tagged item =>
      apply Reader.run_orRestore_of_ok
      cases value with
      | none => rfl
      | some value =>
          have tag := Scalar.run_read_append .u8 1 (item.write value ++ rest)
          refine (Reader.run_bind_of_ok tag).trans ?_
          rw [show UInt8.toUInt32 1 = 1 from rfl, readOption_one,
            Reader.run_bind_of_ok (item.run_read_append value rest), Reader.run_pure]
          rfl
  | slotted item =>
      apply Reader.run_orRestore_of_ok
      cases value with
      | none =>
          have slot : item.write (item.ofBytes ⟨List.replicate item.width 0, by simp⟩) =
              List.replicate item.width 0 := item.write_ofBytes _
          rw [write, List.append_assoc, Reader.run_bind_of_ok (run_read_count (by decide) _),
            ← slot, Reader.run_bind_of_ok (item.run_read_append _ rest)]
          rfl
      | some value =>
          rw [write, List.append_assoc, Reader.run_bind_of_ok (run_read_count (by decide) _),
            Reader.run_bind_of_ok (item.run_read_append _ rest)]
          rfl
  | text =>
      rw [read, write, normalize]
      exact run_readText_append fits rest
  | pairs =>
      rw [read, write, List.append_assoc, Reader.run_bind_of_ok (run_read_count fits.1 _),
        toNat_ofNat_of_lt_countLimit fits.1]
      apply Reader.run_times_append
      intro pair member rest
      obtain ⟨keyFits, textFits⟩ := fits.2 pair member
      rw [readPair, writePair, List.append_assoc,
        Reader.run_bind_of_ok (run_readText_append keyFits _),
        Reader.run_bind_of_ok (run_readText_append textFits _), Reader.run_pure]

/-! ## Comparing -/

/-- Whether two values are equal as numbers are: a NaN equals nothing, and the two zeros are
equal. -/
def agree : (format : Format) → format.Value → format.Value → Bool
  | .scalar .float64, left, right => left.toFloat == right.toFloat
  | .scalar item, left, right => decide ((left : item.Value) = right)
  | .flag, left, right => decide (left = right)
  | .accountState, left, right => decide (left = right)
  | .nonzero _, left, right => decide (left = right)
  | .tagged item, left, right => decide ((left : Option item.Value) = right)
  | .slotted item, left, right => decide ((left : Option item.Value) = right)
  | .text, left, right => decide (left = right)
  | .pairs, left, right => decide (left = right)

end Format

end TokenAccounts
