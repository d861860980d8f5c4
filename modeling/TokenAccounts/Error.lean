import TokenAccounts.Extension.Kind

/-!
# Causes of failure

Everything that can go wrong while account data or an amount is read or written.  Each cause
carries what its message reports, has a stable number, and turns into one of three errors when a
program hands it to the runtime.
-/

namespace TokenAccounts

/-- Why data could not be read or written, or an amount not converted. -/
inductive Error where
  /-- Fewer bytes are left than the value needs. -/
  | bufferTooShort (needed remaining : Nat)
  /-- No account is this long. -/
  | invalidAccountSize (length : Nat)
  /-- An entry declares more value bytes than are left. -/
  | truncatedExtensionData (code : UInt16) (declared remaining : Nat)
  /-- The account-type tag is zero. -/
  | accountNotInitialized
  /-- The account-type tag is that of another type. -/
  | accountTypeMismatch (expected : AccountType) (found : UInt8)
  /-- The gap between a mint and its tag is not all zero. -/
  | invalidPadding
  /-- The account belongs to another program. -/
  | invalidAccountOwner
  /-- The tag of an optional value is neither 0 nor 1. -/
  | invalidOptionDiscriminant (tag : UInt32)
  /-- The byte of a truth value is neither 0 nor 1. -/
  | invalidBool (byte : UInt8)
  /-- The byte names no account state. -/
  | invalidAccountState (byte : UInt8)
  /-- The bytes of a text are not UTF-8. -/
  | invalidUtf8
  /-- A value is not as long as its kind requires. -/
  | invalidExtensionLength (kind : ExtensionKind) (expected found : Nat)
  /-- A value is longer than an entry can declare. -/
  | extensionTooLarge (length : Nat)
  /-- Code 0 marks unused space and cannot be written as an entry. -/
  | reservedExtensionType
  /-- The extension belongs to another type of account. -/
  | invalidExtensionAccountType (type : ExtensionType) (expected : AccountType)
  /-- Values of this type have no common length. -/
  | variableSizeExtension (type : ExtensionType)
  | extensionNotFound
  /-- A record has no such field. -/
  | missingExtensionField (kind : ExtensionKind) (field : String)
  /-- A span of time ends before it starts, or is too long to be counted. -/
  | invalidTimespan
  | invalidUiAmount (text : String)
  /-- An amount does not fit in 64 bits. -/
  | amountOverflow
  | zeroMultiplier
  /-- A raw entry carries the code of a known kind, so it would be read back as that kind. -/
  | unparsedKnownExtensionType (kind : ExtensionKind)
  deriving DecidableEq, Repr

/-- What the runtime is told when a program fails. -/
inductive ProgramError where
  | custom (code : Nat)
  | invalidAccountOwner
  | uninitializedAccount
  deriving DecidableEq, Repr

def ProgramError.text : ProgramError → String
  | .custom code => s!"Custom({code})"
  | .invalidAccountOwner => "InvalidAccountOwner"
  | .uninitializedAccount => "UninitializedAccount"

namespace Error

/-- The identifier and the stable number of a cause. -/
def identity : Error → String × Nat
  | .bufferTooShort .. => ("BufferTooShort", 0)
  | .invalidAccountSize .. => ("InvalidAccountSize", 1)
  | .truncatedExtensionData .. => ("TruncatedExtensionData", 2)
  | .accountNotInitialized => ("AccountNotInitialized", 3)
  | .accountTypeMismatch .. => ("AccountTypeMismatch", 4)
  | .invalidPadding => ("InvalidPadding", 5)
  | .invalidAccountOwner => ("InvalidAccountOwner", 6)
  | .invalidOptionDiscriminant .. => ("InvalidOptionDiscriminant", 7)
  | .invalidBool .. => ("InvalidBool", 8)
  | .invalidAccountState .. => ("InvalidAccountState", 9)
  | .invalidUtf8 => ("InvalidUtf8", 10)
  | .invalidExtensionLength .. => ("InvalidExtensionLength", 11)
  | .extensionTooLarge .. => ("ExtensionTooLarge", 12)
  | .reservedExtensionType => ("ReservedExtensionType", 13)
  | .invalidExtensionAccountType .. => ("InvalidExtensionAccountType", 14)
  | .variableSizeExtension .. => ("VariableSizeExtension", 15)
  | .extensionNotFound => ("ExtensionNotFound", 16)
  | .missingExtensionField .. => ("MissingExtensionField", 17)
  | .invalidTimespan => ("InvalidTimespan", 18)
  | .invalidUiAmount .. => ("InvalidUiAmount", 19)
  | .amountOverflow => ("AmountOverflow", 20)
  | .zeroMultiplier => ("ZeroMultiplier", 21)
  | .unparsedKnownExtensionType .. => ("UnparsedKnownExtensionType", 22)

def name (error : Error) : String := error.identity.1

def code (error : Error) : Nat := error.identity.2

/-- The sentence that reports a cause. -/
def message : Error → String
  | .bufferTooShort needed remaining =>
      s!"buffer too short: needed {needed} bytes, {remaining} remaining"
  | .invalidAccountSize length => s!"invalid account size: {length} bytes"
  | .truncatedExtensionData code declared remaining =>
      s!"truncated extension data: type {code} declares {declared} bytes, {remaining} remaining"
  | .accountNotInitialized => "account is not initialized"
  | .accountTypeMismatch expected found =>
      s!"account type mismatch: expected {expected.name}, found {found}"
  | .invalidPadding => "mint padding is not zeroed"
  | .invalidAccountOwner => "account is not owned by the declared token program"
  | .invalidOptionDiscriminant tag => s!"invalid option discriminant: {tag}"
  | .invalidBool byte => s!"invalid boolean value: {byte}"
  | .invalidAccountState byte => s!"invalid account state: {byte}"
  | .invalidUtf8 => "invalid utf-8 string"
  | .invalidExtensionLength kind expected found =>
      s!"invalid length for {kind.name}: expected {expected}, found {found}"
  | .extensionTooLarge length =>
      s!"extension value of {length} bytes exceeds the TLV length limit"
  | .reservedExtensionType => "extension type 0 is reserved"
  | .invalidExtensionAccountType type expected =>
      s!"{type.name} is not valid for a {expected.name} account"
  | .variableSizeExtension type => s!"{type.name} has a variable size"
  | .extensionNotFound => "extension not found"
  | .missingExtensionField kind field => s!"{kind.name} is missing field `{field}`"
  | .invalidTimespan => "invalid timespan: end time before start time"
  | .invalidUiAmount text => s!"invalid ui amount: {text}"
  | .amountOverflow => "amount overflow"
  | .zeroMultiplier => "scaled ui amount multiplier is zero"
  | .unparsedKnownExtensionType kind =>
      s!"unparsed record uses known extension type {kind.name}"

/-- Two causes have an error of their own in the runtime; every other one is told by its number. -/
def programError : Error → ProgramError
  | .invalidAccountOwner => .invalidAccountOwner
  | .accountNotInitialized => .uninitializedAccount
  | error => .custom error.code

end Error

end TokenAccounts
