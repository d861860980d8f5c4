import TokenAccounts.Decimal.Shortest

/-!
# Doubles as text

The text of a double has the fewest digits that read back, never an exponent, and no point when
there is no fraction.  A text is read with an optional sign, digits around an optional point, and
an optional exponent, or as one of the words for infinity and NaN in any case; the value is
rounded once.
-/

namespace TokenAccounts

/-- The leading decimal digits of a text, and the rest. -/
def spanDigits (text : List Char) : List Char × List Char :=
  (text.takeWhile Char.isDigit, text.dropWhile Char.isDigit)

/-- The number that decimal digits denote. -/
def ofDigits (digits : List Char) : Nat := Nat.ofDigitChars 10 digits 0

namespace Binary64

/-- The text of a double.  Of two equally near shortest decimals the upper one is written. -/
def toText (number : Binary64) : String :=
  if number.isNaN then "NaN"
  else
    let sign := if number.isNegative then "-" else ""
    if number.isInfinite then sign ++ "inf"
    else if number.mantissa = 0 then sign ++ "0"
    else
      let (whole, fraction) := (number.shortest .upper).places
      sign ++ String.ofList (if fraction.isEmpty then whole else whole ++ '.' :: fraction)

/-- The sign in front of a text, if there is one, and the rest. -/
def splitSign : List Char → Bool × List Char
  | '-' :: rest => (true, rest)
  | '+' :: rest => (false, rest)
  | rest => (false, rest)

/-- The exponent that a text is, which may have a sign and must have a digit. -/
def readExponent? (text : List Char) : Option Int :=
  let (negative, rest) := splitSign text
  let (digits, others) := spanDigits rest
  if digits.isEmpty || !others.isEmpty then none
  else some (if negative then -(ofDigits digits : Int) else ofDigits digits)

/-- The magnitude that a text without sign denotes in digits. -/
def readDecimal? (text : List Char) : Option Binary64 := do
  let (whole, afterWhole) := spanDigits text
  let (fraction, afterFraction) :=
    match afterWhole with
    | '.' :: rest => spanDigits rest
    | rest => ([], rest)
  if whole.isEmpty && fraction.isEmpty then none
  else
    let exponent ←
      match afterFraction with
      | [] => some 0
      | 'e' :: rest => readExponent? rest
      | 'E' :: rest => readExponent? rest
      | _ => none
    some (ofDecimal (ofDigits (whole ++ fraction)) (exponent - fraction.length))

/-- The magnitude that a text without sign denotes. -/
def readMagnitude? (text : List Char) : Option Binary64 :=
  match String.ofList (text.map Char.toLower) with
  | "inf" => some ⟨UInt64.ofNat infinityBits⟩
  | "infinity" => some ⟨UInt64.ofNat infinityBits⟩
  | "nan" => some ⟨UInt64.ofNat (infinityBits + 1 <<< 51)⟩
  | _ => readDecimal? text

/-- The double that a text denotes. -/
def ofText? (text : String) : Option Binary64 :=
  let (negative, rest) := splitSign text.toList
  (readMagnitude? rest).map fun magnitude => if negative then magnitude.negate else magnitude

end Binary64

end TokenAccounts
