import TokenAccounts.Field.Layout
import TokenAccounts.Proofs.Bytes.Reader

/-!
# Why a record cannot be read

A record that cannot be read fails for a cause that lies in one of its fields: the bytes run out,
a tag, truth value or state is none that there is, or a text is not UTF-8.  A field in which every
byte is admitted fails only because the bytes run out or are not UTF-8.
-/

namespace TokenAccounts

/-- Whether a cause is that fewer bytes are left than are needed, or that they are not UTF-8. -/
def Error.OfText : Error → Prop
  | .bufferTooShort needed remaining => remaining < needed
  | .invalidUtf8 => True
  | _ => False

/-- Whether a cause is one of a field that cannot be read. -/
def Error.OfField : Error → Prop
  | .bufferTooShort needed remaining => remaining < needed
  | .invalidOptionDiscriminant _ => True
  | .invalidBool _ => True
  | .invalidAccountState _ => True
  | .invalidUtf8 => True
  | _ => False

theorem Error.OfText.ofField (error : Error) (ofText : error.OfText) : error.OfField := by
  cases error with
  | bufferTooShort needed remaining => exact ofText
  | invalidUtf8 => trivial
  | _ => exact False.elim ofText

open Reader (FailsOnly failsOnly_pure failsOnly_fail failsOnly_take)

theorem failsOnly_takeBytes (width : Nat) : FailsOnly Error.OfText (Reader.take width) := by
  apply failsOnly_take
  intro remaining short
  exact short

theorem Scalar.failsOnly_ofText (scalar : Scalar) : FailsOnly Error.OfText scalar.read :=
  (failsOnly_takeBytes scalar.width).bind_pure scalar.ofBytes

theorem Scalar.failsOnly_read (scalar : Scalar) : FailsOnly Error.OfField scalar.read :=
  scalar.failsOnly_ofText.mono Error.OfText.ofField

namespace Format

theorem failsOnly_readText : FailsOnly Error.OfText readText := by
  apply FailsOnly.bind
  · apply FailsOnly.orRestore
    apply (Scalar.failsOnly_ofText .u32).bind
    intro length
    exact (failsOnly_takeBytes length.toNat).bind_pure _
  · intro bytes
    split
    · exact failsOnly_pure _
    · exact failsOnly_fail trivial

theorem failsOnly_readPair : FailsOnly Error.OfText readPair := by
  apply failsOnly_readText.bind
  intro key
  exact failsOnly_readText.bind_pure _

/-- Every byte of a field is admitted, but where it holds text. -/
def isUnchecked : Format → Bool
  | .scalar _ => true
  | .nonzero _ => true
  | .text => true
  | .pairs => true
  | _ => false

theorem failsOnly_ofText {format : Format} (unchecked : format.isUnchecked = true) :
    FailsOnly Error.OfText format.read := by
  cases format with
  | scalar item => exact item.failsOnly_ofText
  | nonzero kind => exact (Scalar.failsOnly_ofText (.blob kind)).bind_pure _
  | text => exact failsOnly_readText
  | pairs =>
      apply (Scalar.failsOnly_ofText .u32).bind
      intro count
      exact failsOnly_readPair.times _
  | flag | accountState | tagged | slotted => cases unchecked

theorem failsOnly_readOption {α : Type} {absent present : Reader α} {allowed : Error → Prop}
    {tag : UInt32} (isAllowed : allowed (.invalidOptionDiscriminant tag))
    (ofAbsent : FailsOnly allowed absent) (ofPresent : FailsOnly allowed present) :
    FailsOnly allowed (readOption tag absent present) := by
  unfold readOption
  split
  · exact ofAbsent
  · split
    · exact ofPresent
    · exact failsOnly_fail isAllowed

theorem failsOnly_read (format : Format) : FailsOnly Error.OfField format.read := by
  cases format with
  | scalar | nonzero | text | pairs => exact (failsOnly_ofText rfl).mono Error.OfText.ofField
  | flag =>
      apply (Scalar.failsOnly_read .u8).bind
      intro byte
      split
      · exact failsOnly_pure _
      · split
        · exact failsOnly_pure _
        · exact failsOnly_fail trivial
  | accountState =>
      apply (Scalar.failsOnly_read .u8).bind
      intro byte
      split
      · exact failsOnly_pure _
      · exact failsOnly_fail trivial
  | tagged item =>
      apply FailsOnly.orRestore
      apply (Scalar.failsOnly_read .u8).bind
      intro tag
      exact failsOnly_readOption trivial (failsOnly_pure _) (item.failsOnly_read.bind_pure _)
  | slotted item =>
      apply FailsOnly.orRestore
      apply (Scalar.failsOnly_read .u32).bind
      intro tag
      apply item.failsOnly_read.bind
      intro value
      exact failsOnly_readOption trivial (failsOnly_pure _) (failsOnly_pure _)

end Format

theorem Layout.failsOnly_read {Description : Type} {Value : Description → Type}
    {allowed : Error → Prop} {readField : (type : Description) → Reader (Value type)}
    {layout : Layout Description}
    (each : ∀ field ∈ layout, FailsOnly allowed (readField field.type)) :
    FailsOnly allowed (layout.read readField) := by
  induction layout with
  | nil => exact failsOnly_pure _
  | cons field rest ih =>
      apply (each field List.mem_cons_self).bind
      intro value
      exact (ih fun other member => each other (List.mem_cons_of_mem _ member)).bind_pure _

theorem FieldType.failsOnly_read (type : FieldType) : FailsOnly Error.OfField type.read := by
  cases type with
  | plain format => exact format.failsOnly_read
  | group fields => exact Layout.failsOnly_read fun field _ => field.type.failsOnly_read

/-- Every byte of a field is admitted, but where it holds text. -/
def FieldType.isUnchecked : FieldType → Bool
  | .plain format => format.isUnchecked
  | .group fields => fields.all fun field => field.type.isUnchecked

theorem FieldType.failsOnly_ofText {type : FieldType} (unchecked : type.isUnchecked = true) :
    FailsOnly Error.OfText type.read := by
  cases type with
  | plain format => exact Format.failsOnly_ofText unchecked
  | group fields =>
      apply Layout.failsOnly_read
      intro field member
      exact Format.failsOnly_ofText (List.all_eq_true.mp unchecked field member)

namespace Record

/-- A record fails for the causes for which its fields do. -/
theorem failsOnly_of_fields {α : Type} [Record α] {allowed : Error → Prop}
    (each : ∀ field ∈ layout α, FailsOnly allowed field.type.read) :
    FailsOnly allowed (read : Reader α) :=
  (Layout.failsOnly_read each).bind_pure _

theorem failsOnly_read (α : Type) [Record α] : FailsOnly Error.OfField (read : Reader α) :=
  failsOnly_of_fields fun field _ => field.type.failsOnly_read

end Record

end TokenAccounts
