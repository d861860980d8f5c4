import TokenAccounts.Account.Basic
import TokenAccounts.Amount.Factor
import TokenAccounts.Amount.Interest

/-!
# Amounts of a mint

How the extensions of a mint change the way its amounts are shown and read.  Interest comes before a
factor, wherever the two stand in the list; without either, amounts are plain decimals.
-/

namespace TokenAccounts

namespace Account

/-- A raw amount of the mint as text. -/
def amountToText (mint : MintAccount) (amount : UInt64) (time : Int64) : Except Error String :=
  let decimals := Mint.decimals mint.base
  match mint.get .interestBearingConfig with
  | .ok config => config.toText amount decimals time
  | .error _ =>
      match mint.get .scaledUiAmount with
      | .ok config => .ok (config.toText amount decimals time)
      | .error _ => .ok (Amount.toTrimmedText amount decimals)

/-- The raw amount of the mint that a text denotes. -/
def amountOfText (mint : MintAccount) (text : String) (time : Int64) : Except Error UInt64 :=
  let decimals := Mint.decimals mint.base
  match mint.get .interestBearingConfig with
  | .ok config => config.ofText text decimals time
  | .error _ =>
      match mint.get .scaledUiAmount with
      | .ok config => config.ofText text decimals time
      | .error _ => Amount.ofText text decimals

end Account

end TokenAccounts
