import TokenAccounts.Bytes.Blob

/-!
# Base 58

Addresses are usually given as numerals in base 58.
-/

namespace TokenAccounts

namespace Base58

/-- The characters for 0 to 57: no zero, no capital O or I, and no small l. -/
def alphabet : List Char :=
  "123456789ABCDEFGHJKLMNPQRSTUVWXYZabcdefghijkmnopqrstuvwxyz".toList

/-- The number that a base-58 numeral denotes; a foreign character counts as zero. -/
def value (text : String) : Nat :=
  text.toList.foldl (fun number character =>
    58 * number + (alphabet.idxOf? character).getD 0) 0

end Base58

/-- The address that a base-58 numeral denotes, most significant byte first. -/
def Blob.ofBase58 (text : String) : Address :=
  ⟨(littleEndian 32 (Base58.value text)).reverse, by simp [BlobKind.width]⟩

end TokenAccounts
