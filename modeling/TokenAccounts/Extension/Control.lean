import TokenAccounts.Field.Layout

/-!
# Extensions that control what may be done

Authorities over a mint, locks on an account, and the marks that an account bears because of an
extension of its mint.
-/

namespace TokenAccounts

/-- Who may close the mint. -/
structure MintCloseAuthority where
  closeAuthority : Option Address
  deriving DecidableEq, Repr

instance : Record MintCloseAuthority where
  layout := [
    .plain "closeAuthority" (.nonzero .address)]
  toValues record := (record.closeAuthority, ())
  ofValues := fun (closeAuthority, ()) =>
    ⟨closeAuthority⟩
  ofValues_toValues _ := rfl
  toValues_ofValues _ := rfl

/-- The state that new accounts of the mint start in. -/
structure DefaultAccountState where
  state : AccountState
  deriving DecidableEq, Repr

instance : Record DefaultAccountState where
  layout := [
    .plain "state" .accountState]
  toValues record := (record.state, ())
  ofValues := fun (state, ()) =>
    ⟨state⟩
  ofValues_toValues _ := rfl
  toValues_ofValues _ := rfl

/-- The owner of the account cannot be changed. -/
structure ImmutableOwner where
  deriving DecidableEq, Repr

instance : Record ImmutableOwner where
  layout := []
  toValues _ := ()
  ofValues _ := ⟨⟩
  ofValues_toValues _ := rfl
  toValues_ofValues _ := rfl

/-- Whether a transfer into the account must come with a memo. -/
structure MemoTransfer where
  requireIncomingTransferMemos : Bool
  deriving DecidableEq, Repr

instance : Record MemoTransfer where
  layout := [
    .plain "requireIncomingTransferMemos" .flag]
  toValues record := (record.requireIncomingTransferMemos, ())
  ofValues := fun (requireIncomingTransferMemos, ()) =>
    ⟨requireIncomingTransferMemos⟩
  ofValues_toValues _ := rfl
  toValues_ofValues _ := rfl

/-- Tokens of the mint cannot be transferred. -/
structure NonTransferable where
  deriving DecidableEq, Repr

instance : Record NonTransferable where
  layout := []
  toValues _ := ()
  ofValues _ := ⟨⟩
  ofValues_toValues _ := rfl
  toValues_ofValues _ := rfl

/-- The account holds tokens that cannot be transferred. -/
structure NonTransferableAccount where
  deriving DecidableEq, Repr

instance : Record NonTransferableAccount where
  layout := []
  toValues _ := ()
  ofValues _ := ⟨⟩
  ofValues_toValues _ := rfl
  toValues_ofValues _ := rfl

/-- Whether privileged operations on the account are refused to calls from other programs. -/
structure CpiGuard where
  lockCpi : Bool
  deriving DecidableEq, Repr

instance : Record CpiGuard where
  layout := [
    .plain "lockCpi" .flag]
  toValues record := (record.lockCpi, ())
  ofValues := fun (lockCpi, ()) =>
    ⟨lockCpi⟩
  ofValues_toValues _ := rfl
  toValues_ofValues _ := rfl

/-- Who may transfer or burn tokens out of any account of the mint. -/
structure PermanentDelegate where
  delegate : Option Address
  deriving DecidableEq, Repr

instance : Record PermanentDelegate where
  layout := [
    .plain "delegate" (.nonzero .address)]
  toValues record := (record.delegate, ())
  ofValues := fun (delegate, ()) =>
    ⟨delegate⟩
  ofValues_toValues _ := rfl
  toValues_ofValues _ := rfl

/-- The program that is called at every transfer. -/
structure TransferHook where
  authority : Option Address
  programId : Option Address
  deriving DecidableEq, Repr

instance : Record TransferHook where
  layout := [
    .plain "authority" (.nonzero .address),
    .plain "programId" (.nonzero .address)]
  toValues record := (record.authority, record.programId, ())
  ofValues := fun (authority, programId, ()) =>
    ⟨authority, programId⟩
  ofValues_toValues _ := rfl
  toValues_ofValues _ := rfl

/-- Whether a transfer that involves the account is under way. -/
structure TransferHookAccount where
  transferring : Bool
  deriving DecidableEq, Repr

instance : Record TransferHookAccount where
  layout := [
    .plain "transferring" .flag]
  toValues record := (record.transferring, ())
  ofValues := fun (transferring, ()) =>
    ⟨transferring⟩
  ofValues_toValues _ := rfl
  toValues_ofValues _ := rfl

/-- Whether activity on the mint is paused, and who may pause and resume it. -/
structure PausableConfig where
  authority : Option Address
  paused : Bool
  deriving DecidableEq, Repr

instance : Record PausableConfig where
  layout := [
    .plain "authority" (.nonzero .address),
    .plain "paused" .flag]
  toValues record := (record.authority, record.paused, ())
  ofValues := fun (authority, paused, ()) =>
    ⟨authority, paused⟩
  ofValues_toValues _ := rfl
  toValues_ofValues _ := rfl

/-- The account holds tokens of a mint that can be paused. -/
structure PausableAccount where
  deriving DecidableEq, Repr

instance : Record PausableAccount where
  layout := []
  toValues _ := ()
  ofValues _ := ⟨⟩
  ofValues_toValues _ := rfl
  toValues_ofValues _ := rfl

/-- Whose consent burning requires. -/
structure PermissionedBurnConfig where
  authority : Address
  deriving DecidableEq, Repr

instance : Record PermissionedBurnConfig where
  layout := [
    .plain "authority" (.blob .address)]
  toValues record := (record.authority, ())
  ofValues := fun (authority, ()) =>
    ⟨authority⟩
  ofValues_toValues _ := rfl
  toValues_ofValues _ := rfl

/-- The account holds tokens whose burning requires consent. -/
structure PermissionedBurnAccount where
  deriving DecidableEq, Repr

instance : Record PermissionedBurnAccount where
  layout := []
  toValues _ := ()
  ofValues _ := ⟨⟩
  ofValues_toValues _ := rfl
  toValues_ofValues _ := rfl

end TokenAccounts
