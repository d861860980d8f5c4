import TokenAccounts.Json.Basic

/-!
# Reading JSON

A text is read as one value with blanks around it.  Reading takes no more steps than twice the
characters there are, which is what bounds the recursion.
-/

namespace TokenAccounts

namespace Json

/-- The characters that may stand between the parts of a value. -/
def isBlank (character : Char) : Bool :=
  character == ' ' || character == '\n' || character == '\t' || character == '\r'

def skipBlanks (text : List Char) : List Char := text.dropWhile isBlank

/-! ## Strings -/

/-- The number that a hexadecimal digit stands for. -/
def hexDigit? (character : Char) : Option Nat :=
  if '0' ≤ character ∧ character ≤ '9' then some (character.toNat - '0'.toNat)
  else if 'a' ≤ character ∧ character ≤ 'f' then some (character.toNat - 'a'.toNat + 10)
  else if 'A' ≤ character ∧ character ≤ 'F' then some (character.toNat - 'A'.toNat + 10)
  else none

/-- The code unit that four hexadecimal digits denote. -/
def readUnit? (first second third fourth : Char) : Option UInt16 := do
  let first ← hexDigit? first
  let second ← hexDigit? second
  let third ← hexDigit? third
  let fourth ← hexDigit? fourth
  some (UInt16.ofNat (((first * 16 + second) * 16 + third) * 16 + fourth))

/-- The character that an escape letter stands for. -/
def unescape? (letter : Char) : Option Char :=
  if letter = '/' then some '/'
  else (escapeLetters.find? fun escape => escape.2 == letter).map Prod.fst

/-- The pieces up to the closing quote, and what follows it.  Control characters must be
escaped. -/
def readPieces? : List Char → Option (List Piece × List Char)
  | [] => none
  | '"' :: rest => some ([], rest)
  | '\\' :: 'u' :: first :: second :: third :: fourth :: rest => do
      let unit ← readUnit? first second third fourth
      let (pieces, rest) ← readPieces? rest
      some (.escaped unit :: pieces, rest)
  | '\\' :: letter :: rest => do
      let character ← unescape? letter
      let (pieces, rest) ← readPieces? rest
      some (.plain character :: pieces, rest)
  | character :: rest =>
      if character = '\\' ∨ character.toNat < 0x20 then none
      else do
        let (pieces, rest) ← readPieces? rest
        some (.plain character :: pieces, rest)

/-! ## Numbers -/

/-- At least one digit, and the rest. -/
def readDigits? (text : List Char) : Option (List Char × List Char) :=
  let digits := text.takeWhile Char.isDigit
  if digits.isEmpty then none else some (digits, text.dropWhile Char.isDigit)

/-- The digits behind a point, if there is a point. -/
def readFraction? : List Char → Option (List Char × List Char)
  | '.' :: rest => readDigits? rest
  | rest => some ([], rest)

/-- The exponent behind its letter. -/
def readExponent? (text : List Char) : Option (Option (Bool × List Char) × List Char) := do
  let (negative, rest) :=
    match text with
    | '-' :: rest => (true, rest)
    | '+' :: rest => (false, rest)
    | rest => (false, rest)
  let (digits, rest) ← readDigits? rest
  some (some (negative, digits), rest)

/-- The exponent with its letter, if there is one. -/
def readScale? : List Char → Option (Option (Bool × List Char) × List Char)
  | 'e' :: rest => readExponent? rest
  | 'E' :: rest => readExponent? rest
  | rest => some (none, rest)

/-- Whether there is a minus sign in front, and the rest. -/
def splitMinus : List Char → Bool × List Char
  | '-' :: rest => (true, rest)
  | rest => (false, rest)

/-- A number.  Its whole part has no superfluous zero in front. -/
def readNumeral? (text : List Char) : Option (Numeral × List Char) := do
  let (negative, rest) := splitMinus text
  let (whole, rest) ← readDigits? rest
  if whole.head? = some '0' ∧ whole ≠ ['0'] then none
  else
    let (fraction, rest) ← readFraction? rest
    let (exponent, rest) ← readScale? rest
    some (⟨negative, whole, fraction, exponent⟩, rest)

/-! ## Values -/

mutual

/-- A value at the front of a text, and what follows it. -/
def readValue? : (fuel : Nat) → List Char → Option (Json × List Char)
  | 0, _ => none
  | fuel + 1, text =>
      match text with
      | 'n' :: 'u' :: 'l' :: 'l' :: rest => some (.null, rest)
      | 't' :: 'r' :: 'u' :: 'e' :: rest => some (.bool true, rest)
      | 'f' :: 'a' :: 'l' :: 's' :: 'e' :: rest => some (.bool false, rest)
      | '"' :: rest => do
          let (pieces, rest) ← readPieces? rest
          some (.string pieces, rest)
      | '[' :: rest =>
          match skipBlanks rest with
          | ']' :: rest => some (.array [], rest)
          | rest => do
              let (items, rest) ← readItems? fuel rest
              some (.array items, rest)
      | '{' :: rest =>
          match skipBlanks rest with
          | '}' :: rest => some (.object [], rest)
          | rest => do
              let (members, rest) ← readMembers? fuel rest
              some (.object members, rest)
      | text => do
          let (numeral, rest) ← readNumeral? text
          some (.number numeral, rest)

/-- The items of an array that has some, up to and with its closing bracket. -/
def readItems? : (fuel : Nat) → List Char → Option (List Json × List Char)
  | 0, _ => none
  | fuel + 1, text => do
      let (item, rest) ← readValue? fuel text
      match skipBlanks rest with
      | ']' :: rest => some ([item], rest)
      | ',' :: rest =>
          let (others, rest) ← readItems? fuel (skipBlanks rest)
          some (item :: others, rest)
      | _ => none

/-- The members of an object that has some, up to and with its closing brace. -/
def readMembers? : (fuel : Nat) → List Char → Option (List (List Piece × Json) × List Char)
  | 0, _ => none
  | fuel + 1, text =>
      match text with
      | '"' :: rest => do
          let (key, rest) ← readPieces? rest
          match skipBlanks rest with
          | ':' :: rest =>
              let (value, rest) ← readValue? fuel (skipBlanks rest)
              match skipBlanks rest with
              | '}' :: rest => some ([(key, value)], rest)
              | ',' :: rest =>
                  let (others, rest) ← readMembers? fuel (skipBlanks rest)
                  some ((key, value) :: others, rest)
              | _ => none
          | _ => none
      | _ => none

end

/-- The value that a text is. -/
def ofText? (text : String) : Option Json := do
  let characters := text.toList
  let (json, rest) ← readValue? (2 * characters.length + 1) (skipBlanks characters)
  if (skipBlanks rest).isEmpty then some json else none

end Json

end TokenAccounts
