import TokenAccounts.Bytes.Base58
import TokenAccounts.Bytes.Text

/-!
# Well-known addresses

The programs and the mint that the account format knows of.
-/

namespace TokenAccounts

/-- The program that the accounts of this format belong to. -/
def tokenProgramId : Address := .ofBase58 "TokenzQdBNbLqP5VEhdkAS6EPFLC1PHnBqCXEpPxuEb"

/-- The program that accounts without extensions may belong to. -/
def legacyTokenProgramId : Address := .ofBase58 "TokenkegQfeZyiNwAJbNbGKPFXCWuBvf9Ss623VQ5DA"

/-- The mint that wraps the native coin. -/
def nativeMint : Address := .ofBase58 "9pan9bMn5HatX4EJdBwg9VgCa7Uz5HL8N1m5D3NdXejP"

/-- What the address of that mint is derived from. -/
def nativeMintSeeds : List (List UInt8) := [utf8Bytes "native-mint", [255]]

/-- The decimal places of the native coin. -/
def nativeMintDecimals : UInt8 := 9

end TokenAccounts
