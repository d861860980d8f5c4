import TokenAccounts.Decimal.Shortest
import TokenAccounts.Json.Basic

/-!
# Numbers in JSON

Whole numbers are exact and refuse a point, an exponent and a negative zero.  Doubles are written
with the fewest digits that read back and at least one place, or with an exponent when the point
would stand far from the digits.  A double is read in two steps, each of which rounds: the leading
digits that fit in a word, and then a multiplication or division by powers of ten.
-/

namespace TokenAccounts

namespace Json

/-! ## Whole numbers -/

/-- The numeral of a whole number. -/
def ofInt (number : Int) : Json :=
  .number ⟨number < 0, wholeText number.natAbs, [], none⟩

/-- The whole number that a value is, if it is one. -/
def toInt? : Json → Option Int
  | .number ⟨negative, whole, [], none⟩ =>
      let magnitude := Nat.ofDigitChars 10 whole 0
      if negative then if magnitude = 0 then none else some (-(magnitude : Int)) else some magnitude
  | _ => none

/-- The whole number in a range that a value is. -/
def toIntWithin? (low high : Int) (json : Json) : Option Int :=
  json.toInt?.filter fun number => low ≤ number ∧ number ≤ high

/-! ## Writing doubles -/

/-- The most digits in front of the point without an exponent. -/
def maxWholePlaces : Int := 16

/-- The most zeros between the point and the first digit without an exponent. -/
def maxLeadingZeros : Int := 4

/-- The numeral of a positive decimal. -/
def numeralOf (negative : Bool) (decimal : Decimal) : Numeral :=
  let digits := wholeText decimal.digits
  let wholePlaces : Int := digits.length + decimal.exponent
  if -maxLeadingZeros ≤ wholePlaces ∧ wholePlaces ≤ maxWholePlaces then
    let (whole, fraction) := decimal.places
    ⟨negative, whole, if fraction.isEmpty then ['0'] else fraction, none⟩
  else
    let power := wholePlaces - 1
    ⟨negative, digits.take 1, digits.drop 1, some (power < 0, wholeText power.natAbs)⟩

/-- A double as JSON.  Of two equally near shortest decimals the even one is written; infinity and
NaN have no numeral. -/
def ofBinary64 (number : Binary64) : Json :=
  if number.isNaN || number.isInfinite then .null
  else if number.mantissa = 0 then .number ⟨number.isNegative, ['0'], ['0'], none⟩
  else .number (numeralOf number.isNegative (number.shortest .even))

/-! ## Reading doubles -/

/-- Take in digits as long as the number they denote fits in a word; the digits that do not are
left over. -/
def gatherDigits (soFar : Nat) : List Char → Nat × List Char
  | [] => (soFar, [])
  | digit :: rest =>
      let next := 10 * soFar + (digit.toNat - '0'.toNat)
      if next < UInt64.size then gatherDigits next rest else (soFar, digit :: rest)

/-- A power of ten in the range of doubles. -/
def powerOfTen (power : Nat) : Float := (Binary64.ofDecimal 1 power).toFloat

/-- The highest power of ten in the range of doubles. -/
def maxPower : Nat := 308

/-- Divide by a power of ten, in several steps if it is out of the range of doubles. -/
def divideByPower (number : Float) (power : Nat) : Float :=
  if power ≤ maxPower then number / powerOfTen power
  else if number == 0 then number
  else divideByPower (number / powerOfTen maxPower) (power - maxPower)
termination_by power
decreasing_by
  have : maxPower = 308 := rfl
  omega

/-- Multiply or divide by a power of ten; a number out of range is refused. -/
def scaleByPower? (number : Float) (power : Int) : Option Float :=
  if power < 0 then some (divideByPower number power.natAbs)
  else if number == 0 then some number
  else if power ≤ maxPower then
    let product := number * powerOfTen power.natAbs
    if product.isInf then none else some product
  else none

/-- The largest number of 31 bits, which bounds exponents. -/
def maxExponent : Int := 2147483647

/-- The magnitude that a numeral denotes. -/
def magnitude? (numeral : Numeral) : Option Float :=
  let (leading, wholeLeft) := gatherDigits 0 numeral.whole
  let (significand, fractionLeft) := gatherDigits leading numeral.fraction
  let placed : Int := wholeLeft.length - (numeral.fraction.length - fractionLeft.length)
  let number := (UInt64.ofNat significand).toFloat
  match numeral.exponent with
  | none => scaleByPower? number placed
  | some (negative, digits) =>
      let power : Int := Nat.ofDigitChars 10 digits 0
      if maxExponent < power then
        if significand ≠ 0 ∧ !negative then none else some 0
      else
        let power := placed + if negative then -power else power
        scaleByPower? number (max (-maxExponent - 1) (min power maxExponent))

/-- The double that a value is.  A whole number in the range of a word, or of a signed word if it
is negative, is rounded once. -/
def toBinary64? (json : Json) : Option Binary64 :=
  match json with
  | .number numeral => do
      let magnitude ← magnitude? numeral
      some (Binary64.ofFloat (if numeral.negative then -magnitude else magnitude))
  | _ => none

end Json

end TokenAccounts
