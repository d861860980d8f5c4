import TokenAccounts.Bytes.Word

/-!
# Byte strings of a fixed width

Addresses, keys and ciphertexts are kept as the bytes they are.  What a byte string is for is
part of its type, so that an address is never taken for a key of the same width.
-/

namespace TokenAccounts

/-- What a byte string of fixed width is for. -/
inductive BlobKind where
  | address
  | elGamalPubkey
  | elGamalCiphertext
  | aeCiphertext
  /-- Bytes of no particular meaning. -/
  | raw (width : Nat)
  deriving DecidableEq, Repr

/-- How many bytes there are. -/
def BlobKind.width : BlobKind → Nat
  | .address => 32
  | .elGamalPubkey => 32
  | .elGamalCiphertext => 64
  | .aeCiphertext => 36
  | .raw width => width

/-- A byte string as wide as its kind says. -/
structure Blob (kind : BlobKind) where
  bytes : List UInt8
  length_bytes : bytes.length = kind.width
  deriving DecidableEq, Repr

abbrev Address := Blob .address
abbrev ElGamalPubkey := Blob .elGamalPubkey
abbrev ElGamalCiphertext := Blob .elGamalCiphertext
abbrev AeCiphertext := Blob .aeCiphertext

namespace Blob

variable {kind : BlobKind}

attribute [simp] length_bytes

theorem ext_bytes {left right : Blob kind} (equal : left.bytes = right.bytes) : left = right := by
  cases left
  cases right
  simp_all

/-- The byte string that a list of bytes is, if it has the right width. -/
def ofBytes? (kind : BlobKind) (bytes : List UInt8) : Option (Blob kind) :=
  if width : bytes.length = kind.width then some ⟨bytes, width⟩ else none

@[simp] theorem ofBytes?_bytes (blob : Blob kind) : ofBytes? kind blob.bytes = some blob := by
  simp [ofBytes?]

/-- The byte string of zeros, which stands for absence where a value is optional. -/
def zero (kind : BlobKind) : Blob kind := ⟨List.replicate kind.width 0, by simp⟩

/-- Whether every byte is zero. -/
def isZero (blob : Blob kind) : Bool := blob.bytes.all (· == 0)

@[simp] theorem isZero_iff {blob : Blob kind} : blob.isZero = true ↔ blob = zero kind := by
  constructor
  · intro every
    apply ext_bytes
    apply List.eq_replicate_iff.mpr
    refine ⟨blob.length_bytes, fun byte member => ?_⟩
    simpa using List.all_eq_true.mp every byte member
  · rintro rfl
    simp [isZero, zero]

end Blob

/-- A double-precision number kept as its 64 bits, so that every NaN and both zeros are told
apart. -/
structure Binary64 where
  bits : UInt64
  deriving DecidableEq, Repr

/-- The number that the bits denote. -/
def Binary64.toFloat (number : Binary64) : Float := Float.ofBits number.bits

end TokenAccounts
