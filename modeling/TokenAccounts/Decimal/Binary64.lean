import TokenAccounts.Bytes.Blob

/-!
# The parts of a double, and rounding to one

A finite double is a sign and a magnitude `mantissa * 2 ^ exponent`.  A fraction is rounded to the
nearest double, a half going to the even mantissa; that is how a decimal numeral gets its value.
-/

namespace TokenAccounts

namespace Binary64

def ofFloat (number : Float) : Binary64 := ⟨number.toBits⟩

/-- Whether the sign bit is set, also that of a zero. -/
def isNegative (number : Binary64) : Bool := number.bits >>> 63 != 0

/-- The eleven bits between sign and fraction. -/
def biasedExponent (number : Binary64) : Nat := ((number.bits >>> 52) &&& 0x7ff).toNat

/-- The fifty-two low bits. -/
def fraction (number : Binary64) : Nat := (number.bits &&& 0xfffffffffffff).toNat

/-- The whole number in the magnitude of a finite double. -/
def mantissa (number : Binary64) : Nat :=
  if number.biasedExponent = 0 then number.fraction else number.fraction + 1 <<< 52

/-- The power of two in the magnitude of a finite double. -/
def exponent (number : Binary64) : Int := max number.biasedExponent 1 - 1075

def isNaN (number : Binary64) : Bool := number.biasedExponent == 0x7ff && number.fraction != 0

def isInfinite (number : Binary64) : Bool := number.biasedExponent == 0x7ff && number.fraction == 0

/-- The double without its fractional part; the sign of a zero is kept. -/
def truncate (number : Binary64) : Binary64 :=
  if 1075 ≤ number.biasedExponent then number
  else if number.biasedExponent < 1023 then ⟨number.bits >>> 63 <<< 63⟩
  else
    let unused := UInt64.ofNat (1075 - number.biasedExponent)
    ⟨number.bits >>> unused <<< unused⟩

/-- The bits of infinity. -/
def infinityBits : Nat := 0x7ff0000000000000

/-- A quotient rounded to the nearest whole number, a half going to the even one. -/
def roundHalfEven (numerator denominator : Nat) : Nat :=
  let quotient := numerator / denominator
  let twice := 2 * (numerator % denominator)
  if denominator < twice ∨ (twice = denominator ∧ quotient % 2 = 1) then quotient + 1
  else quotient

/-- The double nearest to a positive fraction.  Consecutive doubles have consecutive bits, so
rounding up to the next power of two, and past the largest double, needs no case of its own. -/
def ofRatio (numerator denominator : Nat) : Binary64 :=
  if numerator = 0 then ⟨0⟩
  else
    let estimate : Int := numerator.log2 - denominator.log2
    let power : Int := max (estimate - 53) (-1074)
    let scaled (power : Int) : Nat × Nat :=
      (numerator <<< (-power).toNat, denominator <<< power.toNat)
    let tooFine := 1 <<< 53 ≤ (scaled power).1 / (scaled power).2
    let power := if tooFine then power + 1 else power
    let mantissa := roundHalfEven (scaled power).1 (scaled power).2
    let bits := ((power + 1074).toNat <<< 52) + mantissa
    ⟨UInt64.ofNat (min bits infinityBits)⟩

/-- The double nearest to `digits * 10 ^ exponent`.  Far outside the range of doubles the power is
not computed. -/
def ofDecimal (digits : Nat) (exponent : Int) : Binary64 :=
  let magnitude := exponent + (Nat.toDigits 10 digits).length
  if digits = 0 ∨ magnitude < -400 then ⟨0⟩
  else if 400 < magnitude then ⟨UInt64.ofNat infinityBits⟩
  else ofRatio (digits * Nat.pow 10 exponent.toNat) (Nat.pow 10 (-exponent).toNat)

/-- The double with the opposite sign. -/
def negate (number : Binary64) : Binary64 := ⟨number.bits ^^^ 0x8000000000000000⟩

end Binary64

end TokenAccounts
