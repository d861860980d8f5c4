import TokenAccounts.Decimal.Numeral
import TokenAccounts.Error

/-!
# Amounts as decimals

A raw amount counts the smallest units of a token; people see it with a decimal point.  The
conversions here are exact in both directions.
-/

namespace TokenAccounts

namespace Amount

/-- The digits of a number with zeros in front up to a number of places. -/
def paddedDigits (places number : Nat) : List Char :=
  let digits := wholeText number
  List.replicate (places - digits.length) '0' ++ digits

/-- An amount with all its decimal places.  There is a digit in front of the point, and no point
without places. -/
def toDigits (amount : UInt64) (decimals : UInt8) : List Char :=
  let places := decimals.toNat
  let digits := paddedDigits (places + 1) amount.toNat
  if places = 0 then digits
  else digits.take (digits.length - places) ++ '.' :: digits.drop (digits.length - places)

/-- A text without the given character at its end, however often it is there. -/
def trimEnd (character : Char) (text : List Char) : List Char :=
  (text.reverse.dropWhile (· == character)).reverse

/-- An amount without zeros at the end of its decimal places, nor a point that nothing follows. -/
def toTrimmedDigits (amount : UInt64) (decimals : UInt8) : List Char :=
  let digits := toDigits amount decimals
  if decimals = 0 then digits else trimEnd '.' (trimEnd '0' digits)

/-- The text of an amount with all its decimal places. -/
def toText (amount : UInt64) (decimals : UInt8) : String :=
  String.ofList (toDigits amount decimals)

/-- The text of an amount without superfluous decimal places. -/
def toTrimmedText (amount : UInt64) (decimals : UInt8) : String :=
  String.ofList (toTrimmedDigits amount decimals)

/-- Why a text is not the numeral of a 64-bit number. -/
inductive WordError where
  | notANumeral
  | overflow
  deriving DecidableEq, Repr

/-- Take in digits from left to right.  At each place, a character that is no digit is reported
before a number that has become too large. -/
def readDigits (soFar : Nat) : List Char → Except WordError UInt64
  | [] => .ok (UInt64.ofNat soFar)
  | character :: rest =>
      if character.isDigit then
        let next := 10 * soFar + (character.toNat - '0'.toNat)
        if next < UInt64.size then readDigits next rest else .error .overflow
      else .error .notANumeral

/-- The number that a numeral denotes; it may have a plus sign and must have a digit. -/
def readWord : List Char → Except WordError UInt64
  | [] => .error .notANumeral
  | ['+'] => .error .notANumeral
  | '+' :: digits => readDigits 0 digits
  | digits => readDigits 0 digits

/-- A text cut at its points: what stands before the first one, and what follows each. -/
def splitAtPoints : List Char → List Char × List (List Char)
  | [] => ([], [])
  | character :: rest =>
      let (first, others) := splitAtPoints rest
      if character = '.' then ([], first :: others) else (character :: first, others)

/-- The digits whose number is the amount: the whole part, the fraction without zeros at its end,
and a zero for every place then left.  There are none if nothing stands around the point, or the
fraction has more places than there are. -/
def alignPlaces? (whole fraction : List Char) (places : Nat) : Option (List Char) :=
  let fraction := trimEnd '0' fraction
  let length := (String.ofList fraction).utf8ByteSize
  if (whole.isEmpty && fraction.isEmpty) || places < length then none
  else some (whole ++ fraction ++ List.replicate (places - length) '0')

/-- The digits whose number is the amount that a text denotes; the text may have one point. -/
def unscaledDigits? (text : List Char) (places : Nat) : Option (List Char) :=
  match splitAtPoints text with
  | (whole, []) => alignPlaces? whole [] places
  | (whole, [fraction]) => alignPlaces? whole fraction places
  | _ => none

/-- The raw amount that a text denotes. -/
def ofText (text : String) (decimals : UInt8) : Except Error UInt64 :=
  match unscaledDigits? text.toList decimals.toNat with
  | none => .error (.invalidUiAmount text)
  | some digits =>
      match readWord digits with
      | .ok amount => .ok amount
      | .error .overflow => .error .amountOverflow
      | .error .notANumeral => .error (.invalidUiAmount text)

end Amount

end TokenAccounts
