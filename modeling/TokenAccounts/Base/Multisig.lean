import TokenAccounts.Field.Format

/-!
# Multisignature accounts

An owner that is a group of signers.  Such an account has a length of its own, which no other
account may have, and that is how it is told apart.
-/

namespace TokenAccounts

/-- An owner that acts when enough of its signers agree. -/
structure Multisig where
  /-- How many signers have to agree. -/
  m : UInt8
  /-- How many signers there are. -/
  n : UInt8
  isInitialized : Bool
  signers : List Address
  deriving DecidableEq, Repr

namespace Multisig

/-- There are places for this many signers. -/
def maxSigners : Nat := 11

/-- The length of every multisignature account: three bytes and the places for signers. -/
def length : Nat := 3 + maxSigners * BlobKind.address.width

/-- Read the places of the signers there are; the other places are ignored. -/
def read : Reader Multisig := do
  let m ← Scalar.u8.read
  let n ← Scalar.u8.read
  let isInitialized ← Format.flag.read
  let signers ← Reader.times Scalar.address.read (min n.toNat maxSigners)
  pure { m, n, isInitialized, signers }

/-- The multisignature account that data holds. -/
def unpack (data : List UInt8) : Except Error Multisig :=
  if data.length = length then read.outcome data else .error (.invalidAccountSize data.length)

end Multisig

end TokenAccounts
