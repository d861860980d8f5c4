/-!
# Base 64

Three bytes are written as four characters; shorter ends are filled up with equals signs.  Only
the text that writing produces is read, so unused bits must be zero and the filling complete.
-/

namespace TokenAccounts

namespace Base64

/-- The characters for 0 to 63. -/
def alphabet : List Char :=
  "ABCDEFGHIJKLMNOPQRSTUVWXYZabcdefghijklmnopqrstuvwxyz0123456789+/".toList

/-- The character for six bits. -/
def digit (value : Nat) : Char := alphabet[value]?.getD '='

/-- The six bits that a character stands for. -/
def value? (character : Char) : Option Nat := alphabet.idxOf? character

def encode : List UInt8 → List Char
  | [] => []
  | [first] => [digit (first.toNat / 4), digit (first.toNat % 4 * 16), '=', '=']
  | [first, second] =>
      [digit (first.toNat / 4), digit (first.toNat % 4 * 16 + second.toNat / 16),
        digit (second.toNat % 16 * 4), '=']
  | first :: second :: third :: rest =>
      digit (first.toNat / 4) :: digit (first.toNat % 4 * 16 + second.toNat / 16) ::
        digit (second.toNat % 16 * 4 + third.toNat / 64) :: digit (third.toNat % 64) :: encode rest

/-- The bytes that a text with complete filling stands for. -/
def decode? : List Char → Option (List UInt8)
  | [] => some []
  | [first, second, '=', '='] => do
      let first ← value? first
      let second ← value? second
      if second % 16 = 0 then some [UInt8.ofNat (first * 4 + second / 16)] else none
  | [first, second, third, '='] => do
      let first ← value? first
      let second ← value? second
      let third ← value? third
      if third % 4 = 0 then
        some [UInt8.ofNat (first * 4 + second / 16),
          UInt8.ofNat (second % 16 * 16 + third / 4)]
      else none
  | first :: second :: third :: fourth :: rest => do
      let first ← value? first
      let second ← value? second
      let third ← value? third
      let fourth ← value? fourth
      let others ← decode? rest
      some (UInt8.ofNat (first * 4 + second / 16) :: UInt8.ofNat (second % 16 * 16 + third / 4) ::
        UInt8.ofNat (third % 4 * 64 + fourth) :: others)
  | _ => none

end Base64

end TokenAccounts
