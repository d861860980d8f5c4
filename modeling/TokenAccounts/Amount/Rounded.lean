import TokenAccounts.Amount.Plain

/-!
# Amounts through doubles

Amounts of a mint that bears interest or is shown with a factor are computed in doubles, so that
they need not come back as they were.
-/

namespace TokenAccounts

namespace Amount

/-- Multiply by the powers of a base that the binary digits of an exponent select. -/
def powerLoop (result base : Float) (exponent : Nat) : Float :=
  let result := if exponent % 2 = 1 then result * base else result
  if exponent / 2 = 0 then result else powerLoop result (base * base) (exponent / 2)
termination_by exponent
decreasing_by omega

/-- A power of ten by repeated squaring, rounded at every step. -/
def powerOfTen (exponent : UInt8) : Float := powerLoop 1 10 exponent.toNat

/-- A double without its fractional part. -/
def truncate (number : Float) : Float := (Binary64.ofFloat number).truncate.toFloat

/-- A raw amount that has become a double, shown with its decimal places. -/
def showScaled (amount : Float) (decimals : UInt8) : String :=
  (Binary64.ofFloat (amount / powerOfTen decimals)).toText

/-- The raw amount that a text denotes, as a double. -/
def readScaled (text : String) (decimals : UInt8) : Except Error Float :=
  match Binary64.ofText? text with
  | some number => .ok (number.toFloat * powerOfTen decimals)
  | none => .error (.invalidUiAmount text)

/-- The first whole number that has no place in 64 bits. -/
def wordLimit : Float := 18446744073709551616

/-- The 64-bit number that a double is without its fractional part. -/
def toWord (number : Float) : Except Error UInt64 :=
  let whole := truncate number
  if !whole.isFinite || whole < 0 || wordLimit ≤ whole then .error .amountOverflow
  else .ok whole.toUInt64

end Amount

end TokenAccounts
