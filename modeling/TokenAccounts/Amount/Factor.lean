import TokenAccounts.Amount.Rounded
import TokenAccounts.Extension.Display

/-!
# Amounts with a factor

A mint may be shown with every amount multiplied by a factor, and the next factor takes over at a
given time.
-/

namespace TokenAccounts

namespace ScaledUiAmountConfig

/-- The factor in force at a time. -/
def multiplierAt (config : ScaledUiAmountConfig) (time : Int64) : Binary64 :=
  if config.newMultiplierEffectiveTimestamp ≤ time then config.newMultiplier else config.multiplier

/-- A raw amount times the factor, as text. -/
def toText (config : ScaledUiAmountConfig) (amount : UInt64) (decimals : UInt8) (time : Int64) :
    String :=
  let scaled := amount.toFloat * (config.multiplierAt time).toFloat
  Amount.showScaled (Amount.truncate scaled) decimals

/-- The raw amount that a text with the factor denotes.  Nothing can be divided by a factor of
zero. -/
def ofText (config : ScaledUiAmountConfig) (text : String) (decimals : UInt8) (time : Int64) :
    Except Error UInt64 :=
  let multiplier := (config.multiplierAt time).toFloat
  if multiplier == 0 then .error .zeroMultiplier
  else do
    let amount ← Amount.readScaled text decimals
    Amount.toWord (amount / multiplier)

end ScaledUiAmountConfig

end TokenAccounts
