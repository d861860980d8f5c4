/-!
# Numbers as bytes

Natural numbers are laid out in a fixed number of bytes, least significant first.  Main
statements: reading the layout of a number gives the number modulo what the width can hold, and
laying out what some bytes denote gives those bytes.
-/

namespace TokenAccounts

/-- The low bytes of a number, least significant first. -/
def littleEndian : (width value : Nat) → List UInt8
  | 0, _ => []
  | width + 1, value => UInt8.ofNat (value % 256) :: littleEndian width (value / 256)

/-- The first number that has no place in so many bytes. -/
def limit : (width : Nat) → Nat
  | 0 => 1
  | width + 1 => 256 * limit width

/-- The number that bytes denote, least significant first. -/
def ofLittleEndian : List UInt8 → Nat
  | [] => 0
  | byte :: rest => byte.toNat + 256 * ofLittleEndian rest

@[simp] theorem length_littleEndian (width value : Nat) :
    (littleEndian width value).length = width := by
  induction width generalizing value with
  | zero => rfl
  | succ width ih => simp [littleEndian, ih]

theorem ofLittleEndian_lt (bytes : List UInt8) : ofLittleEndian bytes < limit bytes.length := by
  induction bytes with
  | nil => exact Nat.zero_lt_one
  | cons byte rest ih =>
      have := byte.toNat_lt
      simp only [ofLittleEndian, List.length_cons, limit]
      omega

@[simp] theorem ofLittleEndian_littleEndian (width value : Nat) :
    ofLittleEndian (littleEndian width value) = value % limit width := by
  induction width generalizing value with
  | zero => simp [littleEndian, ofLittleEndian, limit, Nat.mod_one]
  | succ width ih =>
      have byte : (UInt8.ofNat (value % 256)).toNat = value % 256 := by simp
      rw [littleEndian, ofLittleEndian, ih, byte, limit, Nat.mod_mul]

@[simp] theorem littleEndian_ofLittleEndian (bytes : List UInt8) :
    littleEndian bytes.length (ofLittleEndian bytes) = bytes := by
  induction bytes with
  | nil => rfl
  | cons byte rest ih =>
      have := byte.toNat_lt
      simp only [List.length_cons, littleEndian, ofLittleEndian]
      rw [show (byte.toNat + 256 * ofLittleEndian rest) % 256 = byte.toNat by omega,
        show (byte.toNat + 256 * ofLittleEndian rest) / 256 = ofLittleEndian rest by omega, ih]
      simp

end TokenAccounts
