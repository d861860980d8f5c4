import TokenAccounts.Amount.Rounded
import TokenAccounts.Extension.Display

/-!
# Amounts with interest

An amount grows exponentially over each of two spans of time: from the start to the last update of
the rate, and from there on.  Spans are exact, and a negative one is refused; the growth itself is
computed in doubles.
-/

namespace TokenAccounts

namespace InterestBearingConfig

/-- A year in seconds, times the number of rate units in one whole. -/
def rateUnit : Float := 31556736 * 10000

/-- The difference of two signed words, if it fits in one. -/
def checkedSub? (left right : Int64) : Option Int64 :=
  let difference := left.toInt - right.toInt
  if Int64.minValue.toInt ≤ difference ∧ difference ≤ Int64.maxValue.toInt then
    some (Int64.ofInt difference)
  else none

/-- The seconds from one time to another that is not earlier. -/
def timespan (start finish : Int64) : Except Error Int64 :=
  match (checkedSub? finish start).filter fun span => 0 ≤ span with
  | some span => .ok span
  | none => .error .invalidTimespan

/-- How an amount grows at a rate over some seconds. -/
def growth (rate : Int16) (span : Int64) : Float :=
  (Float.ofInt rate.toInt * span.toFloat / rateUnit).exp

/-- How an amount has grown from the start until a time: at the average rate until the last
update, and at the current rate since. -/
def totalScale (config : InterestBearingConfig) (time : Int64) : Except Error Float := do
  let before ← timespan config.initializationTimestamp config.lastUpdateTimestamp
  let since ← timespan config.lastUpdateTimestamp time
  pure (growth config.preUpdateAverageRate before * growth config.currentRate since)

/-- A raw amount with interest, as text. -/
def toText (config : InterestBearingConfig) (amount : UInt64) (decimals : UInt8) (time : Int64) :
    Except Error String := do
  let scale ← config.totalScale time
  pure (Amount.showScaled (Amount.truncate (amount.toFloat * scale)) decimals)

/-- The raw amount without interest that a text with interest denotes. -/
def ofText (config : InterestBearingConfig) (text : String) (decimals : UInt8) (time : Int64) :
    Except Error UInt64 := do
  let amount ← Amount.readScaled text decimals
  let scale ← config.totalScale time
  Amount.toWord (amount / scale)

end InterestBearingConfig

end TokenAccounts
