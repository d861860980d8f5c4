import TokenAccounts.Bytes.Blob
import TokenAccounts.Bytes.Reader

/-!
# Scalars

A scalar is a value laid out in a fixed number of bytes, every pattern of which is a value.
Main statements: a scalar fills its width, and laying out and reading back are inverse to each
other, so that reading can fail only for want of bytes.
-/

namespace TokenAccounts

/-- The scalars of the format.  Numbers have their least significant byte first. -/
inductive Scalar where
  | u8
  | u16
  | u32
  | u64
  | i16
  | i64
  | float64
  | blob (kind : BlobKind)
  deriving DecidableEq, Repr

namespace Scalar

/-- What a scalar holds. -/
@[reducible] def Value : Scalar → Type
  | .u8 => UInt8
  | .u16 => UInt16
  | .u32 => UInt32
  | .u64 => UInt64
  | .i16 => Int16
  | .i64 => Int64
  | .float64 => Binary64
  | .blob kind => Blob kind

/-- How many bytes a scalar takes. -/
def width : Scalar → Nat
  | .u8 => 1
  | .u16 => 2
  | .u32 => 4
  | .u64 => 8
  | .i16 => 2
  | .i64 => 8
  | .float64 => 8
  | .blob kind => kind.width

instance : (scalar : Scalar) → DecidableEq scalar.Value
  | .u8 => inferInstanceAs (DecidableEq UInt8)
  | .u16 => inferInstanceAs (DecidableEq UInt16)
  | .u32 => inferInstanceAs (DecidableEq UInt32)
  | .u64 => inferInstanceAs (DecidableEq UInt64)
  | .i16 => inferInstanceAs (DecidableEq Int16)
  | .i64 => inferInstanceAs (DecidableEq Int64)
  | .float64 => inferInstanceAs (DecidableEq Binary64)
  | .blob kind => inferInstanceAs (DecidableEq (Blob kind))

/-- The bytes of a value. -/
def write : (scalar : Scalar) → scalar.Value → List UInt8
  | .u8, value => [value]
  | .u16, value => littleEndian 2 value.toNat
  | .u32, value => littleEndian 4 value.toNat
  | .u64, value => littleEndian 8 value.toNat
  | .i16, value => littleEndian 2 value.toUInt16.toNat
  | .i64, value => littleEndian 8 value.toUInt64.toNat
  | .float64, value => littleEndian 8 value.bits.toNat
  | .blob _, value => value.bytes

/-- The value that bytes of the right width hold. -/
def ofBytes : (scalar : Scalar) → { bytes : List UInt8 // bytes.length = scalar.width } →
    scalar.Value
  | .u8, bytes => UInt8.ofNat (ofLittleEndian bytes.val)
  | .u16, bytes => UInt16.ofNat (ofLittleEndian bytes.val)
  | .u32, bytes => UInt32.ofNat (ofLittleEndian bytes.val)
  | .u64, bytes => UInt64.ofNat (ofLittleEndian bytes.val)
  | .i16, bytes => (UInt16.ofNat (ofLittleEndian bytes.val)).toInt16
  | .i64, bytes => (UInt64.ofNat (ofLittleEndian bytes.val)).toInt64
  | .float64, bytes => ⟨UInt64.ofNat (ofLittleEndian bytes.val)⟩
  | .blob _, bytes => ⟨bytes.val, bytes.property⟩

/-- Read a scalar.  This fails only if there are too few bytes, and then consumes none. -/
def read (scalar : Scalar) : Reader scalar.Value := do
  let bytes ← Reader.take scalar.width
  pure (scalar.ofBytes bytes)

@[simp] theorem length_write (scalar : Scalar) (value : scalar.Value) :
    (scalar.write value).length = scalar.width := by
  cases scalar <;> simp [write, width]

/-- A value is what its bytes hold. -/
@[simp] theorem ofBytes_write (scalar : Scalar) (value : scalar.Value) :
    scalar.ofBytes ⟨scalar.write value, scalar.length_write value⟩ = value := by
  cases scalar <;> simp [write, ofBytes, ofLittleEndian, limit]

/-- Bytes of the right width are the bytes of what they hold. -/
@[simp] theorem write_ofBytes (scalar : Scalar)
    (bytes : { bytes : List UInt8 // bytes.length = scalar.width }) :
    scalar.write (scalar.ofBytes bytes) = bytes.val := by
  obtain ⟨bytes, filled⟩ := bytes
  have bound := ofLittleEndian_lt bytes
  have inverse := littleEndian_ofLittleEndian bytes
  cases scalar with
  | u8 =>
      obtain ⟨byte, rfl⟩ := List.length_eq_one_iff.mp filled
      simp [write, ofBytes, ofLittleEndian]
  | u16 | i16 =>
      rw [filled] at bound inverse
      have held := UInt16.toNat_ofNat_of_lt' (Nat.lt_of_lt_of_le bound (by decide))
      exact (congrArg (littleEndian 2) held).trans inverse
  | u32 =>
      rw [filled] at bound inverse
      have held := UInt32.toNat_ofNat_of_lt' (Nat.lt_of_lt_of_le bound (by decide))
      exact (congrArg (littleEndian 4) held).trans inverse
  | u64 | i64 | float64 =>
      rw [filled] at bound inverse
      have held := UInt64.toNat_ofNat_of_lt' (Nat.lt_of_lt_of_le bound (by decide))
      exact (congrArg (littleEndian 8) held).trans inverse
  | blob kind => rfl

/-- Written and read back, a value is the same, and what follows is left alone. -/
theorem run_read_append (scalar : Scalar) (value : scalar.Value) (rest : List UInt8) :
    scalar.read.run (scalar.write value ++ rest) = (.ok value, rest) := by
  rw [read, Reader.run_bind_of_ok (Reader.run_take_append ⟨_, scalar.length_write value⟩ rest)]
  simp

end Scalar

end TokenAccounts
