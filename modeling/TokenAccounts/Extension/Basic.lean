import TokenAccounts.Extension.Confidential
import TokenAccounts.Extension.Control
import TokenAccounts.Extension.Display
import TokenAccounts.Extension.Group
import TokenAccounts.Extension.Metadata
import TokenAccounts.Extension.Pointer
import TokenAccounts.Extension.TransferFee

/-!
# Extensions

An extension is a value of a registered kind, or data under a code that no kind has, which is
kept as it is.  Each kind is a record type, so reading, writing and measuring are those of
records.
-/

namespace TokenAccounts

namespace ExtensionKind

/-- The record that an extension of this kind holds. -/
@[reducible] def Value : ExtensionKind → Type
  | .transferFeeConfig => TransferFeeConfig
  | .transferFeeAmount => TransferFeeAmount
  | .mintCloseAuthority => MintCloseAuthority
  | .confidentialTransferMint => ConfidentialTransferMint
  | .confidentialTransferAccount => ConfidentialTransferAccount
  | .defaultAccountState => DefaultAccountState
  | .immutableOwner => ImmutableOwner
  | .memoTransfer => MemoTransfer
  | .nonTransferable => NonTransferable
  | .interestBearingConfig => InterestBearingConfig
  | .cpiGuard => CpiGuard
  | .permanentDelegate => PermanentDelegate
  | .nonTransferableAccount => NonTransferableAccount
  | .transferHook => TransferHook
  | .transferHookAccount => TransferHookAccount
  | .confidentialTransferFeeConfig => ConfidentialTransferFeeConfig
  | .confidentialTransferFeeAmount => ConfidentialTransferFeeAmount
  | .metadataPointer => MetadataPointer
  | .tokenMetadata => TokenMetadata
  | .groupPointer => GroupPointer
  | .tokenGroup => TokenGroup
  | .groupMemberPointer => GroupMemberPointer
  | .tokenGroupMember => TokenGroupMember
  | .confidentialMintBurn => ConfidentialMintBurn
  | .scaledUiAmount => ScaledUiAmountConfig
  | .pausable => PausableConfig
  | .pausableAccount => PausableAccount
  | .permissionedBurn => PermissionedBurnConfig
  | .permissionedBurnAccount => PermissionedBurnAccount

instance record : (kind : ExtensionKind) → Record kind.Value
  | .transferFeeConfig => inferInstanceAs (Record TransferFeeConfig)
  | .transferFeeAmount => inferInstanceAs (Record TransferFeeAmount)
  | .mintCloseAuthority => inferInstanceAs (Record MintCloseAuthority)
  | .confidentialTransferMint => inferInstanceAs (Record ConfidentialTransferMint)
  | .confidentialTransferAccount => inferInstanceAs (Record ConfidentialTransferAccount)
  | .defaultAccountState => inferInstanceAs (Record DefaultAccountState)
  | .immutableOwner => inferInstanceAs (Record ImmutableOwner)
  | .memoTransfer => inferInstanceAs (Record MemoTransfer)
  | .nonTransferable => inferInstanceAs (Record NonTransferable)
  | .interestBearingConfig => inferInstanceAs (Record InterestBearingConfig)
  | .cpiGuard => inferInstanceAs (Record CpiGuard)
  | .permanentDelegate => inferInstanceAs (Record PermanentDelegate)
  | .nonTransferableAccount => inferInstanceAs (Record NonTransferableAccount)
  | .transferHook => inferInstanceAs (Record TransferHook)
  | .transferHookAccount => inferInstanceAs (Record TransferHookAccount)
  | .confidentialTransferFeeConfig => inferInstanceAs (Record ConfidentialTransferFeeConfig)
  | .confidentialTransferFeeAmount => inferInstanceAs (Record ConfidentialTransferFeeAmount)
  | .metadataPointer => inferInstanceAs (Record MetadataPointer)
  | .tokenMetadata => inferInstanceAs (Record TokenMetadata)
  | .groupPointer => inferInstanceAs (Record GroupPointer)
  | .tokenGroup => inferInstanceAs (Record TokenGroup)
  | .groupMemberPointer => inferInstanceAs (Record GroupMemberPointer)
  | .tokenGroupMember => inferInstanceAs (Record TokenGroupMember)
  | .confidentialMintBurn => inferInstanceAs (Record ConfidentialMintBurn)
  | .scaledUiAmount => inferInstanceAs (Record ScaledUiAmountConfig)
  | .pausable => inferInstanceAs (Record PausableConfig)
  | .pausableAccount => inferInstanceAs (Record PausableAccount)
  | .permissionedBurn => inferInstanceAs (Record PermissionedBurnConfig)
  | .permissionedBurnAccount => inferInstanceAs (Record PermissionedBurnAccount)

instance decidableEq : (kind : ExtensionKind) → DecidableEq kind.Value
  | .transferFeeConfig => inferInstanceAs (DecidableEq TransferFeeConfig)
  | .transferFeeAmount => inferInstanceAs (DecidableEq TransferFeeAmount)
  | .mintCloseAuthority => inferInstanceAs (DecidableEq MintCloseAuthority)
  | .confidentialTransferMint => inferInstanceAs (DecidableEq ConfidentialTransferMint)
  | .confidentialTransferAccount => inferInstanceAs (DecidableEq ConfidentialTransferAccount)
  | .defaultAccountState => inferInstanceAs (DecidableEq DefaultAccountState)
  | .immutableOwner => inferInstanceAs (DecidableEq ImmutableOwner)
  | .memoTransfer => inferInstanceAs (DecidableEq MemoTransfer)
  | .nonTransferable => inferInstanceAs (DecidableEq NonTransferable)
  | .interestBearingConfig => inferInstanceAs (DecidableEq InterestBearingConfig)
  | .cpiGuard => inferInstanceAs (DecidableEq CpiGuard)
  | .permanentDelegate => inferInstanceAs (DecidableEq PermanentDelegate)
  | .nonTransferableAccount => inferInstanceAs (DecidableEq NonTransferableAccount)
  | .transferHook => inferInstanceAs (DecidableEq TransferHook)
  | .transferHookAccount => inferInstanceAs (DecidableEq TransferHookAccount)
  | .confidentialTransferFeeConfig => inferInstanceAs (DecidableEq ConfidentialTransferFeeConfig)
  | .confidentialTransferFeeAmount => inferInstanceAs (DecidableEq ConfidentialTransferFeeAmount)
  | .metadataPointer => inferInstanceAs (DecidableEq MetadataPointer)
  | .tokenMetadata => inferInstanceAs (DecidableEq TokenMetadata)
  | .groupPointer => inferInstanceAs (DecidableEq GroupPointer)
  | .tokenGroup => inferInstanceAs (DecidableEq TokenGroup)
  | .groupMemberPointer => inferInstanceAs (DecidableEq GroupMemberPointer)
  | .tokenGroupMember => inferInstanceAs (DecidableEq TokenGroupMember)
  | .confidentialMintBurn => inferInstanceAs (DecidableEq ConfidentialMintBurn)
  | .scaledUiAmount => inferInstanceAs (DecidableEq ScaledUiAmountConfig)
  | .pausable => inferInstanceAs (DecidableEq PausableConfig)
  | .pausableAccount => inferInstanceAs (DecidableEq PausableAccount)
  | .permissionedBurn => inferInstanceAs (DecidableEq PermissionedBurnConfig)
  | .permissionedBurnAccount => inferInstanceAs (DecidableEq PermissionedBurnAccount)

instance repr : (kind : ExtensionKind) → Repr kind.Value
  | .transferFeeConfig => inferInstanceAs (Repr TransferFeeConfig)
  | .transferFeeAmount => inferInstanceAs (Repr TransferFeeAmount)
  | .mintCloseAuthority => inferInstanceAs (Repr MintCloseAuthority)
  | .confidentialTransferMint => inferInstanceAs (Repr ConfidentialTransferMint)
  | .confidentialTransferAccount => inferInstanceAs (Repr ConfidentialTransferAccount)
  | .defaultAccountState => inferInstanceAs (Repr DefaultAccountState)
  | .immutableOwner => inferInstanceAs (Repr ImmutableOwner)
  | .memoTransfer => inferInstanceAs (Repr MemoTransfer)
  | .nonTransferable => inferInstanceAs (Repr NonTransferable)
  | .interestBearingConfig => inferInstanceAs (Repr InterestBearingConfig)
  | .cpiGuard => inferInstanceAs (Repr CpiGuard)
  | .permanentDelegate => inferInstanceAs (Repr PermanentDelegate)
  | .nonTransferableAccount => inferInstanceAs (Repr NonTransferableAccount)
  | .transferHook => inferInstanceAs (Repr TransferHook)
  | .transferHookAccount => inferInstanceAs (Repr TransferHookAccount)
  | .confidentialTransferFeeConfig => inferInstanceAs (Repr ConfidentialTransferFeeConfig)
  | .confidentialTransferFeeAmount => inferInstanceAs (Repr ConfidentialTransferFeeAmount)
  | .metadataPointer => inferInstanceAs (Repr MetadataPointer)
  | .tokenMetadata => inferInstanceAs (Repr TokenMetadata)
  | .groupPointer => inferInstanceAs (Repr GroupPointer)
  | .tokenGroup => inferInstanceAs (Repr TokenGroup)
  | .groupMemberPointer => inferInstanceAs (Repr GroupMemberPointer)
  | .tokenGroupMember => inferInstanceAs (Repr TokenGroupMember)
  | .confidentialMintBurn => inferInstanceAs (Repr ConfidentialMintBurn)
  | .scaledUiAmount => inferInstanceAs (Repr ScaledUiAmountConfig)
  | .pausable => inferInstanceAs (Repr PausableConfig)
  | .pausableAccount => inferInstanceAs (Repr PausableAccount)
  | .permissionedBurn => inferInstanceAs (Repr PermissionedBurnConfig)
  | .permissionedBurnAccount => inferInstanceAs (Repr PermissionedBurnAccount)

/-- The registered length of a kind is the sum of the widths of its fields. -/
theorem fixedLength?_eq_width? (kind : ExtensionKind) :
    kind.fixedLength? = Record.width? kind.Value := by
  cases kind <;> rfl

/-- Data for a kind whose values are equally long must have that length. -/
def checkLength (kind : ExtensionKind) (data : List UInt8) : Except Error Unit :=
  match kind.fixedLength? with
  | some length =>
      if data.length = length then .ok ()
      else .error (.invalidExtensionLength kind length data.length)
  | none => .ok ()

/-- The value that the data of an entry holds.  A wrong length of the data is reported before
anything is read, if the length is registered, and what is left over afterwards. -/
def unpack (kind : ExtensionKind) (data : List UInt8) : Except Error kind.Value := do
  kind.checkLength data
  match (Record.read : Reader kind.Value).run data with
  | (.ok value, []) => .ok value
  | (.ok _, rest) =>
      .error (.invalidExtensionLength kind (data.length - rest.length) data.length)
  | (.error error, _) => .error error

/-- How many bytes a value takes. -/
def size (kind : ExtensionKind) (value : kind.Value) : Nat :=
  match kind.fixedLength? with
  | some length => length
  | none => Record.size value

/-- A value is as long as it is said to be. -/
theorem length_write_value (kind : ExtensionKind) (value : kind.Value) :
    (Record.write value).length = kind.size value := by
  rw [Record.length_write, size]
  cases fixed : kind.fixedLength? with
  | none => rfl
  | some length => exact Record.size_of_width? (kind.fixedLength?_eq_width? ▸ fixed) value

end ExtensionKind

/-- The length of what an entry of this type holds, if it is always the same. -/
def ExtensionType.fixedLength? : ExtensionType → Option Nat
  | .uninitialized => some 0
  | .holding kind => kind.fixedLength?

/-- One entry of an account's list of extensions. -/
inductive Extension where
  | typed (kind : ExtensionKind) (value : kind.Value)
  /-- Data under a code without a kind. -/
  | unparsed (code : UInt16) (data : List UInt8)
  deriving DecidableEq, Repr

namespace Extension

/-- The code that the entry is written with. -/
def code : Extension → UInt16
  | .typed kind _ => kind.code
  | .unparsed code _ => code

/-- The registered type of the entry, if its code has one. -/
def type? (extension : Extension) : Option ExtensionType := ExtensionType.ofCode? extension.code

/-- The bytes of the value. -/
def write : Extension → List UInt8
  | .typed _ value => Record.write value
  | .unparsed _ data => data

/-- How many bytes the value takes. -/
def size : Extension → Nat
  | .typed kind value => kind.size value
  | .unparsed _ data => data.length

@[simp] theorem length_write (extension : Extension) :
    extension.write.length = extension.size := by
  cases extension with
  | typed kind value => exact kind.length_write_value value
  | unparsed code data => rfl

/-- The extension that an entry holds; data under an unregistered code is kept as it is. -/
def unpack (code : UInt16) (data : List UInt8) : Except Error Extension :=
  match ExtensionKind.ofCode? code with
  | some kind => (kind.unpack data).map (.typed kind)
  | none => .ok (.unparsed code data)

/-- The value, if it is of the given kind. -/
def value? (kind : ExtensionKind) : Extension → Option kind.Value
  | .typed found value => if same : found = kind then some (same ▸ value) else none
  | .unparsed _ _ => none

/-- An extension as it is read back. -/
def normalize : Extension → Extension
  | .typed kind value => .typed kind (Record.normalize value)
  | .unparsed code data => .unparsed code data

/-- Whether two extensions are equal where numbers are compared as numbers. -/
def agree : Extension → Extension → Bool
  | .typed kind left, .typed other right =>
      if same : other = kind then Record.agree left (same ▸ right) else false
  | .unparsed code data, .unparsed other otherData => code = other && data = otherData
  | _, _ => false

end Extension

end TokenAccounts
