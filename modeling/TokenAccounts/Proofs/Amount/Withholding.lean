import Mathlib.Algebra.Order.Floor.Div
import Mathlib.Data.Rat.Floor
import Mathlib.Tactic.Positivity
import TokenAccounts.Extension.TransferFee

/-!
# What is withheld from a transfer

A fee is the exact share of the amount, rounded up and then capped.  It can be calculated unless
the share itself, before the cap, has no place in 64 bits; a rate of at most one whole never asks
for more than the amount, and then fee and remainder are the amount again.
-/

namespace TokenAccounts

namespace TransferFee

variable {fee : TransferFee} {amount withheld rest : UInt64} {bound : ℕ}

/-- The share of an amount in whole units, rounded up. -/
def share (fee : TransferFee) (amount : UInt64) : ℕ :=
  ⌈(amount.toNat * fee.transferFeeBasisPoints.toNat : ℚ) / 10000⌉₊

/-- The share of an amount with the cap on it, if the share has a place in 64 bits. -/
def cappedShare? (fee : TransferFee) (amount : UInt64) : Option UInt64 :=
  if fee.share amount < UInt64.size then
    some (UInt64.ofNat (min (fee.share amount) fee.maximumFee.toNat))
  else none

/-! ## The share -/

theorem share_le_iff :
    fee.share amount ≤ bound ↔
      amount.toNat * fee.transferFeeBasisPoints.toNat ≤ 10000 * bound := by
  rw [share, Nat.ceil_le, div_le_iff₀' (by positivity)]
  norm_cast

/-- Rounding up is rounding down behind one less than a whole. -/
theorem share_eq_div :
    fee.share amount =
      (amount.toNat * fee.transferFeeBasisPoints.toNat + maxBasisPoints - 1) / maxBasisPoints := by
  apply eq_of_forall_ge_iff
  intro bound
  rw [share_le_iff, ← Nat.ceilDiv_eq_add_pred_div, ceilDiv_le_iff_le_mul (by decide)]
  rfl

theorem share_eq_zero (nothing : fee.transferFeeBasisPoints = 0 ∨ amount = 0) :
    fee.share amount = 0 := by
  rw [← Nat.le_zero, share_le_iff]
  rcases nothing with noRate | noAmount
  · simp [noRate]
  · simp [noAmount]

/-- A rate of at most one whole asks for no more than there is. -/
theorem share_le_amount (atMostAll : fee.transferFeeBasisPoints.toNat ≤ 10000) (amount : UInt64) :
    fee.share amount ≤ amount.toNat := by
  rw [share_le_iff, Nat.mul_comm 10000]
  exact Nat.mul_le_mul_left _ atMostAll

/-! ## The fee -/

/-- The product of an amount and a rate has a place in 128 bits, and so has the sum in front of the
division. -/
theorem numerator_lt (amount : UInt64) (rate : UInt16) :
    amount.toNat * rate.toNat + maxBasisPoints < limit 16 := by
  have product : amount.toNat * rate.toNat ≤ limit 8 * limit 2 :=
    Nat.mul_le_mul (Nat.le_of_lt amount.toNat_lt) (Nat.le_of_lt rate.toNat_lt)
  have room : limit 8 * limit 2 + maxBasisPoints < limit 16 := by decide
  omega

/-- The share can always be computed, and exactly. -/
theorem exists_uncapped? (fee : TransferFee) (amount : UInt64) :
    ∃ wide, fee.uncapped? amount = some wide ∧ wide.toNat = fee.share amount := by
  have small := numerator_lt amount fee.transferFeeBasisPoints
  have rate : fee.transferFeeBasisPoints.toUInt64.toNat = fee.transferFeeBasisPoints.toNat := by
    simp
  have product : (Wide.ofWord amount).mul? (.ofWord fee.transferFeeBasisPoints.toUInt64) =
      some ⟨amount.toNat * fee.transferFeeBasisPoints.toNat, by omega⟩ := by
    rw [Wide.mul?_eq_some_iff, Wide.toNat_ofWord, Wide.toNat_ofWord, rate]
  have shareSmall : fee.share amount < limit 16 := by
    rw [share_eq_div]
    exact Nat.lt_of_le_of_lt (Nat.div_le_self _ _) (by omega)
  refine ⟨⟨fee.share amount, shareSmall⟩, ?_, rfl⟩
  rw [uncapped?, product, Option.bind_eq_bind, Option.bind_some,
    Wide.ceilDiv?_eq_some_iff (by decide) small]
  exact share_eq_div

/-- The fee is the share with the cap on it. -/
theorem calculate_eq_cappedShare? (fee : TransferFee) (amount : UInt64) :
    fee.calculate amount = fee.cappedShare? amount := by
  rw [calculate, cappedShare?]
  split
  · next nothing =>
      rw [share_eq_zero nothing, Nat.zero_min]
      rfl
  · rcases fee.exists_uncapped? amount with ⟨wide, computed, exact⟩
    rw [computed, Option.bind_eq_bind, Option.bind_some, ← exact]
    by_cases small : wide.toNat < UInt64.size
    · have word : wide.toWord? = some (UInt64.ofNat wide.toNat) :=
        Wide.toWord?_eq_some_iff.mpr (UInt64.toNat_ofNat_of_lt' small)
      rw [word, if_pos small, Option.bind_eq_bind, Option.bind_some, Option.some.injEq,
        ← UInt64.toNat_inj, UInt64.toNat_min, UInt64.toNat_ofNat_of_lt' small,
        UInt64.toNat_ofNat_of_lt' (by omega)]
    · rw [Wide.toWord?_eq_none_iff.mpr (Nat.le_of_not_lt small), if_neg small]
      rfl

theorem calculate_eq_some_iff :
    fee.calculate amount = some withheld ↔
      fee.share amount < UInt64.size ∧
        withheld.toNat = min (fee.share amount) fee.maximumFee.toNat := by
  rw [calculate_eq_cappedShare?, cappedShare?]
  split
  · next small =>
      rw [Option.some.injEq, ← UInt64.toNat_inj, UInt64.toNat_ofNat_of_lt' (by omega),
        and_iff_right small]
      exact eq_comm
  · next large =>
      constructor
      · intro impossible
        cases impossible
      · intro fits
        exact absurd fits.1 large

/-- There is a fee if the share has a place in 64 bits. -/
theorem exists_calculate_of_share_lt (small : fee.share amount < UInt64.size) :
    ∃ withheld, fee.calculate amount = some withheld ∧
      withheld.toNat = min (fee.share amount) fee.maximumFee.toNat := by
  have capped : (UInt64.ofNat (min (fee.share amount) fee.maximumFee.toNat)).toNat =
      min (fee.share amount) fee.maximumFee.toNat := UInt64.toNat_ofNat_of_lt' (by omega)
  exact ⟨_, calculate_eq_some_iff.mpr ⟨small, capped⟩, capped⟩

/-- At a rate of at most one whole, the fee is no more than the amount. -/
theorem calculate_le (atMostAll : fee.transferFeeBasisPoints.toNat ≤ 10000)
    (calculated : fee.calculate amount = some withheld) : withheld ≤ amount := by
  have covered := share_le_amount atMostAll amount
  rw [UInt64.le_iff_toNat_le, (calculate_eq_some_iff.mp calculated).2]
  omega

/-- A rate of at most one whole always has a fee, and the fee is no more than the amount. -/
theorem exists_calculate_le (atMostAll : fee.transferFeeBasisPoints.toNat ≤ 10000)
    (amount : UInt64) : ∃ withheld, fee.calculate amount = some withheld ∧ withheld ≤ amount := by
  have covered := share_le_amount atMostAll amount
  rcases exists_calculate_of_share_lt (Nat.lt_of_le_of_lt covered amount.toNat_lt) with
    ⟨withheld, calculated, -⟩
  exact ⟨withheld, calculated, calculate_le atMostAll calculated⟩

/-! ## The remainder -/

theorem remainder_eq_some_iff :
    fee.remainder amount = some rest ↔
      ∃ withheld, fee.calculate amount = some withheld ∧ withheld ≤ amount ∧
        rest = amount - withheld := by
  rw [remainder, Option.bind_eq_bind, Option.bind_eq_some_iff]
  apply exists_congr
  intro withheld
  rw [and_congr_right_iff]
  intro _
  split
  · next covered => rw [Option.some.injEq, and_iff_right covered, eq_comm]
  · next short =>
      constructor
      · intro impossible
        cases impossible
      · intro covered
        exact absurd covered.1 short

/-- A fee is the share of the amount, rounded up and then capped, and there is none just if the
share has no place in 64 bits; on the way to the share nothing is too large for 128.  The remainder
is what the fee leaves of the amount, and there is none just if the fee is missing or more than the
amount.  A rate of at most one whole has both, and together they are the amount.  In an epoch it is
the newer fee from its own epoch on, and the older one before. -/
theorem fees_are_capped_shares (fee : TransferFee) (amount : UInt64) :
    (∃ wide, fee.uncapped? amount = some wide ∧ wide.toNat = fee.share amount) ∧
    fee.calculate amount = fee.cappedShare? amount ∧
    (∀ rest, fee.remainder amount = some rest ↔
      ∃ withheld, fee.calculate amount = some withheld ∧ withheld ≤ amount ∧
        rest = amount - withheld) ∧
    (fee.transferFeeBasisPoints.toNat ≤ 10000 →
      ∃ withheld rest, fee.calculate amount = some withheld ∧ fee.remainder amount = some rest ∧
        withheld.toNat + rest.toNat = amount.toNat) ∧
    ∀ (config : TransferFeeConfig) (epoch : UInt64),
      (config.newerTransferFee.epoch ≤ epoch →
        config.calculateAt epoch amount = config.newerTransferFee.cappedShare? amount) ∧
      (epoch < config.newerTransferFee.epoch →
        config.calculateAt epoch amount = config.olderTransferFee.cappedShare? amount) := by
  refine ⟨fee.exists_uncapped? amount, fee.calculate_eq_cappedShare? amount,
    fun rest => remainder_eq_some_iff, ?atMostAll, ?inEpoch⟩
  case atMostAll =>
    intro atMostAll
    rcases exists_calculate_le atMostAll amount with ⟨withheld, calculated, covered⟩
    have left := remainder_eq_some_iff.mpr ⟨withheld, calculated, covered, rfl⟩
    refine ⟨withheld, amount - withheld, calculated, left, ?_⟩
    rw [UInt64.toNat_sub_of_le _ _ covered]
    exact Nat.add_sub_cancel' (UInt64.le_iff_toNat_le.mp covered)
  case inEpoch =>
    intro config epoch
    simp only [TransferFeeConfig.calculateAt, TransferFeeConfig.feeAt, calculate_eq_cappedShare?]
    constructor
    · intro since
      rw [if_pos since]
    · intro before
      rw [if_neg (UInt64.not_le.mpr before)]

/-- Fees that go from the whole amount to twice the amount in epoch 20, and are never capped. -/
def doubling : TransferFeeConfig :=
  ⟨none, none, 0, ⟨10, 18446744073709551615, 10000⟩, ⟨20, 18446744073709551615, 20000⟩⟩

/-- The largest amount can be withheld whole, which is what happens up to epoch 19, but from epoch
20 on there is no fee for it.  Of an amount half as large twice is withheld, so that there is no
remainder. -/
theorem fees_of_doubling :
    (∃ withheld rest, doubling.olderTransferFee.calculate 18446744073709551615 = some withheld ∧
      doubling.olderTransferFee.remainder 18446744073709551615 = some rest ∧
      withheld.toNat + rest.toNat = 18446744073709551615) ∧
    doubling.calculateAt 19 18446744073709551615 = some 18446744073709551615 ∧
    doubling.calculateAt 20 18446744073709551615 = none ∧
    doubling.calculateAt 20 9223372036854775807 = some 18446744073709551614 ∧
    doubling.newerTransferFee.remainder 9223372036854775807 = none := by
  rcases fees_are_capped_shares doubling.olderTransferFee 18446744073709551615 with
    ⟨-, -, -, atMostAll, inEpoch⟩
  rcases fees_are_capped_shares doubling.newerTransferFee 9223372036854775807 with
    ⟨-, calculated, remains, -, inEpochOfHalf⟩
  have twice : doubling.newerTransferFee.cappedShare? 9223372036854775807 =
      some 18446744073709551614 := by
    rw [cappedShare?, share_eq_div]
    decide
  refine ⟨atMostAll (by decide), ?before, ?since, ?half, ?short⟩
  case before =>
    rw [(inEpoch doubling 19).2 (by decide), cappedShare?, share_eq_div]
    decide
  case since =>
    rw [(inEpoch doubling 20).1 (by decide), cappedShare?, share_eq_div]
    decide
  case half => rw [(inEpochOfHalf doubling 20).1 (by decide), twice]
  case short =>
    rw [Option.eq_none_iff_forall_ne_some]
    intro rest left
    rcases (remains rest).mp left with ⟨withheld, held, covered, -⟩
    rw [calculated, twice, Option.some.injEq] at held
    subst held
    exact absurd covered (by decide)

end TransferFee

end TokenAccounts
