import TokenAccounts.Field.Layout

/-!
# Confidential amounts

Records of confidential transfers, fees and supply. Keys and ciphertexts are kept as the bytes
they are.
-/

namespace TokenAccounts

/-- How confidential transfers of the mint are set up. -/
structure ConfidentialTransferMint where
  /-- Who may change this configuration and approve accounts. -/
  authority : Option Address
  autoApproveNewAccounts : Bool
  /-- The key under which an auditor can read transfer amounts. -/
  auditorElgamalPubkey : Option ElGamalPubkey
  deriving DecidableEq, Repr

instance : Record ConfidentialTransferMint where
  layout := [
    .plain "authority" (.nonzero .address),
    .plain "autoApproveNewAccounts" .flag,
    .plain "auditorElgamalPubkey" (.nonzero .elGamalPubkey)]
  toValues record := (record.authority, record.autoApproveNewAccounts,
    record.auditorElgamalPubkey, ())
  ofValues := fun (authority, autoApproveNewAccounts, auditorElgamalPubkey, ()) =>
    ⟨authority, autoApproveNewAccounts, auditorElgamalPubkey⟩
  ofValues_toValues _ := rfl
  toValues_ofValues _ := rfl

/-- The confidential balances of an account. -/
structure ConfidentialTransferAccount where
  approved : Bool
  elgamalPubkey : ElGamalPubkey
  /-- The low 16 bits of what has come in and not been applied. -/
  pendingBalanceLo : ElGamalCiphertext
  /-- The high 48 bits of it. -/
  pendingBalanceHi : ElGamalCiphertext
  availableBalance : ElGamalCiphertext
  decryptableAvailableBalance : AeCiphertext
  allowConfidentialCredits : Bool
  allowNonConfidentialCredits : Bool
  /-- How many credits are pending. -/
  pendingBalanceCreditCounter : UInt64
  /-- How many credits may be pending. -/
  maximumPendingBalanceCreditCounter : UInt64
  expectedPendingBalanceCreditCounter : UInt64
  actualPendingBalanceCreditCounter : UInt64
  deriving DecidableEq, Repr

instance : Record ConfidentialTransferAccount where
  layout := [
    .plain "approved" .flag,
    .plain "elgamalPubkey" (.blob .elGamalPubkey),
    .plain "pendingBalanceLo" (.blob .elGamalCiphertext),
    .plain "pendingBalanceHi" (.blob .elGamalCiphertext),
    .plain "availableBalance" (.blob .elGamalCiphertext),
    .plain "decryptableAvailableBalance" (.blob .aeCiphertext),
    .plain "allowConfidentialCredits" .flag,
    .plain "allowNonConfidentialCredits" .flag,
    .plain "pendingBalanceCreditCounter" .u64,
    .plain "maximumPendingBalanceCreditCounter" .u64,
    .plain "expectedPendingBalanceCreditCounter" .u64,
    .plain "actualPendingBalanceCreditCounter" .u64]
  toValues record := (record.approved, record.elgamalPubkey, record.pendingBalanceLo,
    record.pendingBalanceHi, record.availableBalance, record.decryptableAvailableBalance,
    record.allowConfidentialCredits, record.allowNonConfidentialCredits,
    record.pendingBalanceCreditCounter, record.maximumPendingBalanceCreditCounter,
    record.expectedPendingBalanceCreditCounter, record.actualPendingBalanceCreditCounter, ())
  ofValues := fun (approved, elgamalPubkey, pendingBalanceLo, pendingBalanceHi,
    availableBalance, decryptableAvailableBalance, allowConfidentialCredits,
    allowNonConfidentialCredits, pendingBalanceCreditCounter,
    maximumPendingBalanceCreditCounter, expectedPendingBalanceCreditCounter,
    actualPendingBalanceCreditCounter, ()) =>
    ⟨approved, elgamalPubkey, pendingBalanceLo, pendingBalanceHi, availableBalance,
      decryptableAvailableBalance, allowConfidentialCredits, allowNonConfidentialCredits,
      pendingBalanceCreditCounter, maximumPendingBalanceCreditCounter,
      expectedPendingBalanceCreditCounter, actualPendingBalanceCreditCounter⟩
  ofValues_toValues _ := rfl
  toValues_ofValues _ := rfl

namespace ConfidentialTransferAccount

/-- Whether one more credit may come in before the pending ones are applied. -/
def creditsAvailable (account : ConfidentialTransferAccount) : Bool :=
  account.pendingBalanceCreditCounter < account.maximumPendingBalanceCreditCounter

/-- Whether both parts of the pending balance are the ciphertext of zeros. -/
def pendingIsZero (account : ConfidentialTransferAccount) : Bool :=
  account.pendingBalanceLo.isZero && account.pendingBalanceHi.isZero

end ConfidentialTransferAccount

/-- How fees on confidential transfers of the mint are withheld. -/
structure ConfidentialTransferFeeConfig where
  authority : Option Address
  /-- The key under which accounts encrypt what they withhold. -/
  withdrawWithheldAuthorityElgamalPubkey : ElGamalPubkey
  harvestToMintEnabled : Bool
  withheldAmount : ElGamalCiphertext
  deriving DecidableEq, Repr

instance : Record ConfidentialTransferFeeConfig where
  layout := [
    .plain "authority" (.nonzero .address),
    .plain "withdrawWithheldAuthorityElgamalPubkey" (.blob .elGamalPubkey),
    .plain "harvestToMintEnabled" .flag,
    .plain "withheldAmount" (.blob .elGamalCiphertext)]
  toValues record := (record.authority, record.withdrawWithheldAuthorityElgamalPubkey,
    record.harvestToMintEnabled, record.withheldAmount, ())
  ofValues := fun (authority, withdrawWithheldAuthorityElgamalPubkey, harvestToMintEnabled,
    withheldAmount, ()) =>
    ⟨authority, withdrawWithheldAuthorityElgamalPubkey, harvestToMintEnabled, withheldAmount⟩
  ofValues_toValues _ := rfl
  toValues_ofValues _ := rfl

/-- What the account has withheld from confidential transfers. -/
structure ConfidentialTransferFeeAmount where
  withheldAmount : ElGamalCiphertext
  deriving DecidableEq, Repr

instance : Record ConfidentialTransferFeeAmount where
  layout := [
    .plain "withheldAmount" (.blob .elGamalCiphertext)]
  toValues record := (record.withheldAmount, ())
  ofValues := fun (withheldAmount, ()) =>
    ⟨withheldAmount⟩
  ofValues_toValues _ := rfl
  toValues_ofValues _ := rfl

/-- The confidential supply of the mint. -/
structure ConfidentialMintBurn where
  confidentialSupply : ElGamalCiphertext
  decryptableSupply : AeCiphertext
  supplyElgamalPubkey : ElGamalPubkey
  /-- What has been burned and not yet taken from the supply. -/
  pendingBurn : ElGamalCiphertext
  deriving DecidableEq, Repr

instance : Record ConfidentialMintBurn where
  layout := [
    .plain "confidentialSupply" (.blob .elGamalCiphertext),
    .plain "decryptableSupply" (.blob .aeCiphertext),
    .plain "supplyElgamalPubkey" (.blob .elGamalPubkey),
    .plain "pendingBurn" (.blob .elGamalCiphertext)]
  toValues record := (record.confidentialSupply, record.decryptableSupply,
    record.supplyElgamalPubkey, record.pendingBurn, ())
  ofValues := fun (confidentialSupply, decryptableSupply, supplyElgamalPubkey, pendingBurn,
    ()) =>
    ⟨confidentialSupply, decryptableSupply, supplyElgamalPubkey, pendingBurn⟩
  ofValues_toValues _ := rfl
  toValues_ofValues _ := rfl

end TokenAccounts
