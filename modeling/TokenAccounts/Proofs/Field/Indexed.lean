import TokenAccounts.Base.Multisig
import TokenAccounts.Field.Layout
import TokenAccounts.Proofs.Bytes.Indexed

/-!
# Reading records by position

Every read of a field, a record or a multisignature account is written once more with positions.
Main statement: these reads never ask for bytes out of range, and do the same.
-/

namespace TokenAccounts

open IndexedReader (Follows follows_pure follows_fail follows_take)

def Scalar.readIndexed (scalar : Scalar) : IndexedReader scalar.Value := do
  let bytes ← IndexedReader.take scalar.width
  pure (scalar.ofBytes bytes)

theorem Scalar.follows_read (scalar : Scalar) : scalar.readIndexed.Follows scalar.read :=
  (follows_take scalar.width).bind_pure scalar.ofBytes

namespace Format

def readOptionIndexed {α : Type} (tag : UInt32) (absent present : IndexedReader α) :
    IndexedReader α :=
  if tag = 0 then absent
  else if tag = 1 then present
  else IndexedReader.fail (.invalidOptionDiscriminant tag)

def readTextBytesIndexed : IndexedReader (List UInt8) := IndexedReader.orRestore do
  let length ← Scalar.u32.readIndexed
  let bytes ← IndexedReader.take length.toNat
  pure bytes.val

def readTextIndexed : IndexedReader String := do
  let bytes ← readTextBytesIndexed
  match ofUtf8Bytes? bytes with
  | some value => pure value
  | none => IndexedReader.fail .invalidUtf8

def readPairIndexed : IndexedReader (String × String) := do
  let key ← readTextIndexed
  let value ← readTextIndexed
  pure (key, value)

/-- Read a value by position.  Before the rows of a table are read, it is asked how many bytes are
left for them. -/
def readIndexed : (format : Format) → IndexedReader format.Value
  | .scalar item => item.readIndexed
  | .flag => do
      let byte ← Scalar.u8.readIndexed
      if byte = 0 then pure false
      else if byte = 1 then pure true
      else IndexedReader.fail (.invalidBool byte)
  | .accountState => do
      let byte ← Scalar.u8.readIndexed
      match AccountState.ofCode? byte with
      | some state => pure state
      | none => IndexedReader.fail (.invalidAccountState byte)
  | .nonzero kind => do
      let blob ← (Scalar.blob kind).readIndexed
      pure (if blob.isZero then none else some blob)
  | .tagged item => IndexedReader.orRestore do
      let tag ← Scalar.u8.readIndexed
      readOptionIndexed tag.toUInt32 (pure none) (do
        let value ← item.readIndexed
        pure (some value))
  | .slotted item => IndexedReader.orRestore do
      let tag ← Scalar.u32.readIndexed
      let value ← item.readIndexed
      readOptionIndexed tag (pure none) (pure (some value))
  | .text => readTextIndexed
  | .pairs => do
      let count ← Scalar.u32.readIndexed
      let _ ← IndexedReader.remaining
      IndexedReader.times readPairIndexed count.toNat

theorem follows_readOption {α : Type} {tag : UInt32} {absent present : IndexedReader α}
    {absentRead presentRead : Reader α} (ofAbsent : absent.Follows absentRead)
    (ofPresent : present.Follows presentRead) :
    (readOptionIndexed tag absent present).Follows (readOption tag absentRead presentRead) := by
  unfold readOptionIndexed readOption
  split
  · exact ofAbsent
  · split
    · exact ofPresent
    · exact follows_fail _

theorem follows_readText : readTextIndexed.Follows readText := by
  apply Follows.bind
  · apply Follows.orRestore
    apply (Scalar.follows_read .u32).bind
    intro length
    exact (follows_take length.toNat).bind_pure _
  · intro bytes
    cases ofUtf8Bytes? bytes with
    | some text => exact follows_pure text
    | none => exact follows_fail _

theorem follows_readPair : readPairIndexed.Follows readPair := by
  apply follows_readText.bind
  intro key
  exact follows_readText.bind_pure _

theorem follows_read (format : Format) : format.readIndexed.Follows format.read := by
  cases format with
  | scalar item => exact item.follows_read
  | flag =>
      apply (Scalar.follows_read .u8).bind
      intro byte
      split
      · exact follows_pure _
      · split
        · exact follows_pure _
        · exact follows_fail _
  | accountState =>
      apply (Scalar.follows_read .u8).bind
      intro byte
      cases AccountState.ofCode? byte with
      | some state => exact follows_pure state
      | none => exact follows_fail _
  | nonzero kind => exact (Scalar.follows_read (.blob kind)).bind_pure _
  | tagged item =>
      apply Follows.orRestore
      apply (Scalar.follows_read .u8).bind
      intro tag
      exact follows_readOption (follows_pure _) (item.follows_read.bind_pure _)
  | slotted item =>
      apply Follows.orRestore
      apply (Scalar.follows_read .u32).bind
      intro tag
      apply item.follows_read.bind
      intro value
      exact follows_readOption (follows_pure _) (follows_pure _)
  | text => exact follows_readText
  | pairs =>
      apply (Scalar.follows_read .u32).bind
      intro count
      exact (follows_readPair.times _).after_remaining

end Format

namespace Layout

variable {Description : Type} {Value : Description → Type}

def readIndexed (readField : (type : Description) → IndexedReader (Value type)) :
    (layout : Layout Description) → IndexedReader (layout.Values Value)
  | [] => pure ()
  | field :: rest => do
      let value ← readField field.type
      let values ← readIndexed readField rest
      pure (value, values)

theorem follows_read {readFieldIndexed : (type : Description) → IndexedReader (Value type)}
    {readField : (type : Description) → Reader (Value type)}
    (each : ∀ type, (readFieldIndexed type).Follows (readField type))
    (layout : Layout Description) :
    (layout.readIndexed readFieldIndexed).Follows (layout.read readField) := by
  induction layout with
  | nil => exact follows_pure ()
  | cons field rest ih =>
      apply (each field.type).bind
      intro value
      exact ih.bind_pure _

end Layout

def FieldType.readIndexed : (type : FieldType) → IndexedReader type.Value
  | .plain format => format.readIndexed
  | .group fields => fields.readIndexed Format.readIndexed

theorem FieldType.follows_read (type : FieldType) : type.readIndexed.Follows type.read := by
  cases type with
  | plain format => exact format.follows_read
  | group fields => exact Layout.follows_read Format.follows_read fields

namespace Record

variable {α : Type} [Record α]

def readIndexed : IndexedReader α := do
  let values ← (layout α).readIndexed FieldType.readIndexed
  pure (ofValues values)

theorem follows_read : (readIndexed : IndexedReader α).Follows read :=
  (Layout.follows_read FieldType.follows_read _).bind_pure _

end Record

namespace Multisig

def readIndexed : IndexedReader Multisig := do
  let m ← Scalar.u8.readIndexed
  let n ← Scalar.u8.readIndexed
  let isInitialized ← Format.flag.readIndexed
  let signers ← IndexedReader.times Scalar.address.readIndexed (min n.toNat maxSigners)
  pure { m, n, isInitialized, signers }

theorem follows_read : readIndexed.Follows read := by
  apply (Scalar.follows_read .u8).bind
  intro m
  apply (Scalar.follows_read .u8).bind
  intro n
  apply (Format.follows_read .flag).bind
  intro isInitialized
  exact ((Scalar.follows_read .address).times _).bind_pure _

end Multisig

end TokenAccounts
