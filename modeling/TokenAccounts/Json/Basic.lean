/-!
# JSON

A JSON value keeps the spelling of its numbers and strings, because what a number or string means
depends on the type that is wanted: an integer type refuses `1.0`, and an ignored string may hold
escapes that no text can.  This module has the values, their compact text, and the meaning of
strings.
-/

namespace TokenAccounts

namespace Json

/-- One character of a string: itself, or an escaped code unit of UTF-16. -/
inductive Piece where
  | plain (character : Char)
  | escaped (unit : UInt16)
  deriving DecidableEq, Repr

/-- A number as it is spelled.  Without a point there is no fraction, and a point has at least one
digit behind it. -/
structure Numeral where
  negative : Bool
  whole : List Char
  fraction : List Char
  /-- Whether the exponent is negative, and its digits. -/
  exponent : Option (Bool × List Char)
  deriving DecidableEq, Repr

end Json

/-- A JSON value. -/
inductive Json where
  | null
  | bool (value : Bool)
  | number (numeral : Json.Numeral)
  | string (pieces : List Json.Piece)
  | array (items : List Json)
  | object (members : List (List Json.Piece × Json))
  deriving Repr

namespace Json

/-! ## Strings -/

/-- The letter that escapes a character, for those that have one. -/
def escapeLetters : List (Char × Char) :=
  [('"', '"'), ('\\', '\\'), ('\x08', 'b'), ('\t', 't'), ('\n', 'n'), ('\x0c', 'f'), ('\r', 'r')]

/-- The piece that spells a character.  A control character without a letter is escaped as the code
unit it is. -/
def pieceOf (character : Char) : Piece :=
  if escapeLetters.lookup character = none ∧ character.toNat < 0x20 then
    .escaped (UInt16.ofNat character.toNat)
  else .plain character

/-- The pieces that spell a text. -/
def piecesOf (text : String) : List Piece := text.toList.map pieceOf

/-- The first unit of a pair. -/
def isHighSurrogate (unit : UInt16) : Bool := 0xd800 ≤ unit && unit < 0xdc00

/-- The second unit of a pair. -/
def isLowSurrogate (unit : UInt16) : Bool := 0xdc00 ≤ unit && unit < 0xe000

/-- The characters that pieces spell.  Escaped surrogates must come in pairs. -/
def characters? : List Piece → Option (List Char)
  | [] => some []
  | .plain character :: rest => (characters? rest).map (character :: ·)
  | .escaped high :: .escaped low :: rest =>
      if isHighSurrogate high then
        if isLowSurrogate low then
          let code := 0x10000 + (high.toNat - 0xd800) * 0x400 + (low.toNat - 0xdc00)
          (characters? rest).map (Char.ofNat code :: ·)
        else none
      else if isLowSurrogate high then none
      else (characters? (.escaped low :: rest)).map (Char.ofNat high.toNat :: ·)
  | .escaped unit :: rest =>
      if isHighSurrogate unit || isLowSurrogate unit then none
      else (characters? rest).map (Char.ofNat unit.toNat :: ·)

/-- The text that pieces spell. -/
def textOf? (pieces : List Piece) : Option String := (characters? pieces).map String.ofList

/-! ## Compact text -/

/-- A code unit as four hexadecimal digits. -/
def hexUnit (unit : Nat) : List Char :=
  [unit / 4096 % 16, unit / 256 % 16, unit / 16 % 16, unit % 16].map Nat.digitChar

/-- How one piece is written: a character with a letter is escaped by it, and any other stands for
itself. -/
def renderPiece : Piece → List Char
  | .plain character =>
      match escapeLetters.lookup character with
      | some letter => ['\\', letter]
      | none => [character]
  | .escaped unit => '\\' :: 'u' :: hexUnit unit.toNat

def renderString (pieces : List Piece) : List Char :=
  '"' :: pieces.flatMap renderPiece ++ ['"']

/-- How a number is written.  An exponent always has its sign, also when it is positive. -/
def renderNumeral (numeral : Numeral) : List Char :=
  (if numeral.negative then ['-'] else []) ++ numeral.whole ++
    (if numeral.fraction.isEmpty then [] else '.' :: numeral.fraction) ++
    match numeral.exponent with
    | none => []
    | some (negative, digits) => 'e' :: (if negative then '-' else '+') :: digits

mutual

/-- The compact text of a value. -/
def render : Json → List Char
  | .null => ['n', 'u', 'l', 'l']
  | .bool true => ['t', 'r', 'u', 'e']
  | .bool false => ['f', 'a', 'l', 's', 'e']
  | .number numeral => renderNumeral numeral
  | .string pieces => renderString pieces
  | .array items => '[' :: renderItems items
  | .object members => '{' :: renderMembers members

/-- The items of an array, up to and with its closing bracket. -/
def renderItems : List Json → List Char
  | [] => [']']
  | [item] => render item ++ [']']
  | item :: rest => render item ++ ',' :: renderItems rest

/-- The members of an object, up to and with its closing brace. -/
def renderMembers : List (List Piece × Json) → List Char
  | [] => ['}']
  | [(key, value)] => renderString key ++ ':' :: render value ++ ['}']
  | (key, value) :: rest => renderString key ++ ':' :: render value ++ ',' :: renderMembers rest

end

/-- The compact text of a value. -/
def toText (json : Json) : String := String.ofList json.render

end Json

end TokenAccounts
