import TokenAccounts.Amount.Wide
import TokenAccounts.Field.Layout

/-!
# Transfer fees

The fee that is withheld from a transfer is a share of the amount, rounded up and capped.  The
share is computed in 128 bits with checks, and must fit in 64 bits before it is capped.
-/

namespace TokenAccounts

/-- The share of an amount that is withheld, the most that may be, and from when on. -/
structure TransferFee where
  epoch : UInt64
  /-- The most that is withheld from one transfer. -/
  maximumFee : UInt64
  /-- The share, in hundredths of a per cent. -/
  transferFeeBasisPoints : UInt16
  deriving DecidableEq, Repr

namespace TransferFee

/-- How a fee lies inside another record. -/
@[reducible] def layout : Layout Format := [
  ⟨"epoch", .u64⟩,
  ⟨"maximumFee", .u64⟩,
  ⟨"transferFeeBasisPoints", .u16⟩]

def toValues (fee : TransferFee) : layout.Values Format.Value :=
  (fee.epoch, fee.maximumFee, fee.transferFeeBasisPoints, ())

def ofValues : layout.Values Format.Value → TransferFee
  | (epoch, maximumFee, transferFeeBasisPoints, ()) => ⟨epoch, maximumFee, transferFeeBasisPoints⟩

/-- A share of one whole, in hundredths of a per cent. -/
def maxBasisPoints : Nat := 10000

/-- The share of an amount before the cap, rounded up. -/
def uncapped? (fee : TransferFee) (amount : UInt64) : Option Wide := do
  let product ← (Wide.ofWord amount).mul? (.ofWord fee.transferFeeBasisPoints.toUInt64)
  product.ceilDiv? ⟨maxBasisPoints, by decide⟩

/-- What is withheld from a transfer of an amount; nothing if the share is too large to be
counted. -/
def calculate (fee : TransferFee) (amount : UInt64) : Option UInt64 :=
  if fee.transferFeeBasisPoints = 0 ∨ amount = 0 then some 0
  else do
    let share ← fee.uncapped? amount
    let withheld ← share.toWord?
    some (min withheld fee.maximumFee)

/-- What arrives of an amount when the fee has been withheld from it. -/
def remainder (fee : TransferFee) (amount : UInt64) : Option UInt64 := do
  let withheld ← fee.calculate amount
  if withheld ≤ amount then some (amount - withheld) else none

end TransferFee

/-- The fees of a mint: one in force, one that takes over from its epoch on, and what has been
withheld. -/
structure TransferFeeConfig where
  transferFeeConfigAuthority : Option Address
  withdrawWithheldAuthority : Option Address
  withheldAmount : UInt64
  olderTransferFee : TransferFee
  newerTransferFee : TransferFee
  deriving DecidableEq, Repr

instance : Record TransferFeeConfig where
  layout := [
    .plain "transferFeeConfigAuthority" (.nonzero .address),
    .plain "withdrawWithheldAuthority" (.nonzero .address),
    .plain "withheldAmount" .u64,
    .group "olderTransferFee" TransferFee.layout,
    .group "newerTransferFee" TransferFee.layout]
  toValues record := (record.transferFeeConfigAuthority, record.withdrawWithheldAuthority,
    record.withheldAmount, record.olderTransferFee.toValues, record.newerTransferFee.toValues,
    ())
  ofValues := fun (transferFeeConfigAuthority, withdrawWithheldAuthority, withheldAmount,
    olderTransferFee, newerTransferFee, ()) =>
    ⟨transferFeeConfigAuthority, withdrawWithheldAuthority, withheldAmount,
      .ofValues olderTransferFee, .ofValues newerTransferFee⟩
  ofValues_toValues _ := rfl
  toValues_ofValues _ := rfl

namespace TransferFeeConfig

/-- The fee in force in an epoch. -/
def feeAt (config : TransferFeeConfig) (epoch : UInt64) : TransferFee :=
  if config.newerTransferFee.epoch ≤ epoch then config.newerTransferFee
  else config.olderTransferFee

/-- What is withheld from a transfer of an amount in an epoch. -/
def calculateAt (config : TransferFeeConfig) (epoch amount : UInt64) : Option UInt64 :=
  (config.feeAt epoch).calculate amount

end TransferFeeConfig

/-- What the account has withheld from transfers into it. -/
structure TransferFeeAmount where
  withheldAmount : UInt64
  deriving DecidableEq, Repr

instance : Record TransferFeeAmount where
  layout := [
    .plain "withheldAmount" .u64]
  toValues record := (record.withheldAmount, ())
  ofValues := fun (withheldAmount, ()) =>
    ⟨withheldAmount⟩
  ofValues_toValues _ := rfl
  toValues_ofValues _ := rfl

end TokenAccounts
