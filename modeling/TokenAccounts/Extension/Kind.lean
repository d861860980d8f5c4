import TokenAccounts.AccountType

/-!
# The registry of extensions

Every extension that an account may carry has a kind: a two-byte code, a name, and the type of
account it belongs to.  Code 0 is registered too, but holds no value; it marks space that no
entry uses.  Main statement: codes and registered types determine each other.
-/

namespace TokenAccounts

/-- The kinds of extension, in the order of their codes. -/
inductive ExtensionKind where
  | transferFeeConfig
  | transferFeeAmount
  | mintCloseAuthority
  | confidentialTransferMint
  | confidentialTransferAccount
  | defaultAccountState
  | immutableOwner
  | memoTransfer
  | nonTransferable
  | interestBearingConfig
  | cpiGuard
  | permanentDelegate
  | nonTransferableAccount
  | transferHook
  | transferHookAccount
  | confidentialTransferFeeConfig
  | confidentialTransferFeeAmount
  | metadataPointer
  | tokenMetadata
  | groupPointer
  | tokenGroup
  | groupMemberPointer
  | tokenGroupMember
  | confidentialMintBurn
  | scaledUiAmount
  | pausable
  | pausableAccount
  | permissionedBurn
  | permissionedBurnAccount
  deriving DecidableEq, Repr

namespace ExtensionKind

/-- What the registry records of a kind. -/
structure Registration where
  code : UInt16
  name : String
  accountType : AccountType

/-- The registry. -/
def registration : ExtensionKind → Registration
  | .transferFeeConfig => ⟨1, "TransferFeeConfig", .mint⟩
  | .transferFeeAmount => ⟨2, "TransferFeeAmount", .account⟩
  | .mintCloseAuthority => ⟨3, "MintCloseAuthority", .mint⟩
  | .confidentialTransferMint => ⟨4, "ConfidentialTransferMint", .mint⟩
  | .confidentialTransferAccount => ⟨5, "ConfidentialTransferAccount", .account⟩
  | .defaultAccountState => ⟨6, "DefaultAccountState", .mint⟩
  | .immutableOwner => ⟨7, "ImmutableOwner", .account⟩
  | .memoTransfer => ⟨8, "MemoTransfer", .account⟩
  | .nonTransferable => ⟨9, "NonTransferable", .mint⟩
  | .interestBearingConfig => ⟨10, "InterestBearingConfig", .mint⟩
  | .cpiGuard => ⟨11, "CpiGuard", .account⟩
  | .permanentDelegate => ⟨12, "PermanentDelegate", .mint⟩
  | .nonTransferableAccount => ⟨13, "NonTransferableAccount", .account⟩
  | .transferHook => ⟨14, "TransferHook", .mint⟩
  | .transferHookAccount => ⟨15, "TransferHookAccount", .account⟩
  | .confidentialTransferFeeConfig => ⟨16, "ConfidentialTransferFeeConfig", .mint⟩
  | .confidentialTransferFeeAmount => ⟨17, "ConfidentialTransferFeeAmount", .account⟩
  | .metadataPointer => ⟨18, "MetadataPointer", .mint⟩
  | .tokenMetadata => ⟨19, "TokenMetadata", .mint⟩
  | .groupPointer => ⟨20, "GroupPointer", .mint⟩
  | .tokenGroup => ⟨21, "TokenGroup", .mint⟩
  | .groupMemberPointer => ⟨22, "GroupMemberPointer", .mint⟩
  | .tokenGroupMember => ⟨23, "TokenGroupMember", .mint⟩
  | .confidentialMintBurn => ⟨24, "ConfidentialMintBurn", .mint⟩
  | .scaledUiAmount => ⟨25, "ScaledUiAmount", .mint⟩
  | .pausable => ⟨26, "Pausable", .mint⟩
  | .pausableAccount => ⟨27, "PausableAccount", .account⟩
  | .permissionedBurn => ⟨28, "PermissionedBurn", .mint⟩
  | .permissionedBurnAccount => ⟨29, "PermissionedBurnAccount", .account⟩

/-- The code that an entry of this kind is written with. -/
def code (kind : ExtensionKind) : UInt16 := kind.registration.code

def name (kind : ExtensionKind) : String := kind.registration.name

/-- The type of account that an extension of this kind belongs to. -/
def accountType (kind : ExtensionKind) : AccountType := kind.registration.accountType

/-- Every kind, in the order of the codes. -/
def all : List ExtensionKind :=
  [.transferFeeConfig, .transferFeeAmount, .mintCloseAuthority, .confidentialTransferMint,
   .confidentialTransferAccount, .defaultAccountState, .immutableOwner, .memoTransfer,
   .nonTransferable, .interestBearingConfig, .cpiGuard, .permanentDelegate,
   .nonTransferableAccount, .transferHook, .transferHookAccount,
   .confidentialTransferFeeConfig, .confidentialTransferFeeAmount, .metadataPointer,
   .tokenMetadata, .groupPointer, .tokenGroup, .groupMemberPointer, .tokenGroupMember,
   .confidentialMintBurn, .scaledUiAmount, .pausable, .pausableAccount, .permissionedBurn,
   .permissionedBurnAccount]

/-- The length of every value of this kind, if all are equally long. -/
def fixedLength? : ExtensionKind → Option Nat
  | .immutableOwner | .nonTransferable | .nonTransferableAccount | .pausableAccount
  | .permissionedBurnAccount => some 0
  | .defaultAccountState | .memoTransfer | .cpiGuard | .transferHookAccount => some 1
  | .transferFeeAmount => some 8
  | .mintCloseAuthority | .permanentDelegate | .permissionedBurn => some 32
  | .pausable => some 33
  | .interestBearingConfig => some 52
  | .scaledUiAmount => some 56
  | .transferHook | .confidentialTransferFeeAmount | .metadataPointer | .groupPointer
  | .groupMemberPointer => some 64
  | .confidentialTransferMint => some 65
  | .tokenGroupMember => some 72
  | .tokenGroup => some 80
  | .transferFeeConfig => some 108
  | .confidentialTransferFeeConfig => some 129
  | .confidentialMintBurn => some 196
  | .confidentialTransferAccount => some 295
  | .tokenMetadata => none

def ofCode? (code : UInt16) : Option ExtensionKind :=
  all.find? fun kind => kind.code == code

def ofName? (name : String) : Option ExtensionKind :=
  all.find? fun kind => kind.name == name

@[simp] theorem ofCode?_code (kind : ExtensionKind) : ofCode? kind.code = some kind := by
  cases kind <;> rfl

theorem code_of_ofCode? {code : UInt16} {kind : ExtensionKind}
    (found : ofCode? code = some kind) : kind.code = code := by
  simpa using List.find?_some found

@[simp] theorem ofName?_name (kind : ExtensionKind) : ofName? kind.name = some kind := by
  cases kind <;> rfl

/-- Code 0 is reserved: no kind is written with it. -/
theorem code_ne_zero (kind : ExtensionKind) : kind.code ≠ 0 := by
  cases kind <;> decide

end ExtensionKind

/-- The registered entry types: the reserved code 0, and one type for every kind. -/
inductive ExtensionType where
  | uninitialized
  | holding (kind : ExtensionKind)
  deriving DecidableEq, Repr

namespace ExtensionType

def code : ExtensionType → UInt16
  | .uninitialized => 0
  | .holding kind => kind.code

def name : ExtensionType → String
  | .uninitialized => "Uninitialized"
  | .holding kind => kind.name

/-- Unused space belongs to no initialized account. -/
def accountType : ExtensionType → AccountType
  | .uninitialized => .uninitialized
  | .holding kind => kind.accountType

/-- The kind of value that an entry of this type holds. -/
def kind? : ExtensionType → Option ExtensionKind
  | .uninitialized => none
  | .holding kind => some kind

def ofCode? (code : UInt16) : Option ExtensionType :=
  if code = 0 then some .uninitialized else (ExtensionKind.ofCode? code).map .holding

def ofName? (name : String) : Option ExtensionType :=
  if name = "Uninitialized" then some .uninitialized
  else (ExtensionKind.ofName? name).map .holding

@[simp] theorem ofCode?_code (type : ExtensionType) : ofCode? type.code = some type := by
  cases type with
  | uninitialized => rfl
  | holding kind => simp [ofCode?, code, kind.code_ne_zero]

theorem code_of_ofCode? {code : UInt16} {type : ExtensionType}
    (found : ofCode? code = some type) : type.code = code := by
  unfold ofCode? at found
  split at found
  · cases found
    simp_all [ExtensionType.code]
  · obtain ⟨kind, known, rfl⟩ := Option.map_eq_some_iff.mp found
    exact ExtensionKind.code_of_ofCode? known

@[simp] theorem ofName?_name (type : ExtensionType) : ofName? type.name = some type := by
  cases type with
  | uninitialized => rfl
  | holding kind => cases kind <;> rfl

end ExtensionType

end TokenAccounts
