import TokenAccounts.Field.Layout

/-!
# Extensions that change how amounts are shown

A mint may show amounts with interest, or multiplied by a factor. The records are here; the
arithmetic is with the other conversions of amounts.
-/

namespace TokenAccounts

/-- Interest on amounts of the mint, compounded continuously. Rates are in hundredths of a per
cent a year, and times in seconds. -/
structure InterestBearingConfig where
  rateAuthority : Option Address
  initializationTimestamp : Int64
  /-- The average rate from the start to the last update. -/
  preUpdateAverageRate : Int16
  lastUpdateTimestamp : Int64
  currentRate : Int16
  deriving DecidableEq, Repr

instance : Record InterestBearingConfig where
  layout := [
    .plain "rateAuthority" (.nonzero .address),
    .plain "initializationTimestamp" .i64,
    .plain "preUpdateAverageRate" .i16,
    .plain "lastUpdateTimestamp" .i64,
    .plain "currentRate" .i16]
  toValues record := (record.rateAuthority, record.initializationTimestamp,
    record.preUpdateAverageRate, record.lastUpdateTimestamp, record.currentRate, ())
  ofValues := fun (rateAuthority, initializationTimestamp, preUpdateAverageRate,
    lastUpdateTimestamp, currentRate, ()) =>
    ⟨rateAuthority, initializationTimestamp, preUpdateAverageRate, lastUpdateTimestamp,
      currentRate⟩
  ofValues_toValues _ := rfl
  toValues_ofValues _ := rfl

/-- A factor on amounts of the mint, and the next factor with the time at which it takes over. -/
structure ScaledUiAmountConfig where
  authority : Option Address
  multiplier : Binary64
  newMultiplierEffectiveTimestamp : Int64
  newMultiplier : Binary64
  deriving DecidableEq, Repr

instance : Record ScaledUiAmountConfig where
  layout := [
    .plain "authority" (.nonzero .address),
    .plain "multiplier" .float64,
    .plain "newMultiplierEffectiveTimestamp" .i64,
    .plain "newMultiplier" .float64]
  toValues record := (record.authority, record.multiplier,
    record.newMultiplierEffectiveTimestamp, record.newMultiplier, ())
  ofValues := fun (authority, multiplier, newMultiplierEffectiveTimestamp, newMultiplier, ()) =>
    ⟨authority, multiplier, newMultiplierEffectiveTimestamp, newMultiplier⟩
  ofValues_toValues _ := rfl
  toValues_ofValues _ := rfl

end TokenAccounts
