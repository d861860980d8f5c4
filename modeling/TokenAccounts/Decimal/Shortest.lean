import TokenAccounts.Decimal.Binary64

/-!
# The shortest decimal of a double

Of all decimals that round to a double, the ones with the fewest digits are the multiples of the
highest power of ten that has a multiple among them.  Of these the one nearest to the double is
chosen; where two are equally near, a rule for ties decides.
-/

namespace TokenAccounts

/-- Which of two equally near decimals is chosen. -/
inductive TieRule where
  | upper
  | even
  deriving DecidableEq, Repr

/-- The number `digits * 10 ^ exponent`. -/
structure Decimal where
  digits : Nat
  exponent : Int
  deriving DecidableEq, Repr

namespace Binary64

/-- The numbers that round to a positive double, as multiples of one unit: the double itself, the
two ends, and whether the ends belong to them. -/
structure RoundingInterval where
  value : Nat
  low : Nat
  high : Nat
  unit : Nat
  closed : Bool

/-- An end lies half way to the next double; below a power of two, doubles are twice as dense. -/
def roundingInterval (number : Binary64) : RoundingInterval :=
  let power := number.exponent - 2
  let factor := 1 <<< power.toNat
  let value := 4 * number.mantissa
  let below := if number.fraction = 0 ∧ 1 < number.biasedExponent then 1 else 2
  { value := value * factor
    low := (value - below) * factor
    high := (value + 2) * factor
    unit := 1 <<< (-power).toNat
    closed := number.mantissa % 2 == 0 }

/-- Whether a multiple of a step lies in the interval, both in its unit. -/
def RoundingInterval.contains (interval : RoundingInterval) (point : Nat) : Bool :=
  if interval.closed then interval.low ≤ point && point ≤ interval.high
  else interval.low < point && point < interval.high

/-- The interval in a unit that is finer by a factor. -/
def RoundingInterval.refine (interval : RoundingInterval) (factor : Nat) : RoundingInterval :=
  { interval with
    value := interval.value * factor
    low := interval.low * factor
    high := interval.high * factor }

/-- The multiple of a power of ten that lies in the interval and is nearest to its value, as a
number of steps. -/
def RoundingInterval.nearest? (interval : RoundingInterval) (ties : TieRule) (power : Int) :
    Option Nat :=
  let fine := interval.refine (Nat.pow 10 (-power).toNat)
  let step := interval.unit * Nat.pow 10 power.toNat
  let lower := fine.value / step
  let upper := lower + 1
  match fine.contains (lower * step), fine.contains (upper * step) with
  | false, false => none
  | true, false => some lower
  | false, true => some upper
  | true, true =>
      let twice := 2 * (fine.value % step)
      if twice < step then some lower
      else if step < twice then some upper
      else
        match ties with
        | .upper => some upper
        | .even => some (if lower % 2 = 0 then lower else upper)

/-- Try powers of ten downwards, a number of times. -/
def RoundingInterval.search (interval : RoundingInterval) (ties : TieRule) :
    (attempts : Nat) → (power : Int) → Decimal
  | 0, power => ⟨0, power⟩
  | attempts + 1, power =>
      match interval.nearest? ties power with
      | some digits => ⟨digits, power⟩
      | none => search interval ties attempts (power - 1)

/-- The shortest decimal that rounds to a positive double.  No power above the number of digits of
the whole part can have a multiple in the interval.  The double is itself a multiple of one if it is
a whole number, and of the power of ten with its own exponent if it is not, so the search ends. -/
def shortest (number : Binary64) (ties : TieRule) : Decimal :=
  let interval := number.roundingInterval
  let top : Int := (Nat.toDigits 10 (interval.high / interval.unit)).length
  interval.search ties (top - min number.exponent 0 + 1).toNat top

end Binary64

/-- The digits of a whole number. -/
def wholeText (number : Nat) : List Char := Nat.toDigits 10 number

/-- The digits of a decimal around its point: whole part and fraction. -/
def Decimal.places (decimal : Decimal) : List Char × List Char :=
  let digits := wholeText decimal.digits
  if 0 ≤ decimal.exponent then (digits ++ List.replicate decimal.exponent.toNat '0', [])
  else
    let count := (-decimal.exponent).toNat
    if count < digits.length then
      (digits.take (digits.length - count), digits.drop (digits.length - count))
    else (['0'], List.replicate (count - digits.length) '0' ++ digits)

end TokenAccounts
