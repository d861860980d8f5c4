import TokenAccounts.Bytes.Word

/-!
# Wide numbers

A 64-bit amount times a rate can need more than 64 bits, so it is computed in 128.  Each operation
is checked: it has no result where the exact one has no place in 128 bits.  Main statements: a
result is the exact number, and a quotient is rounded up wherever the sum in front of its division
has a place.
-/

namespace TokenAccounts

/-- A whole number that has a place in 128 bits. -/
structure Wide where
  toNat : Nat
  toNat_lt : toNat < limit 16
  deriving DecidableEq, Repr

namespace Wide

variable {left right result numerator denominator : Wide} {number : Nat} {word : UInt64}

/-- A number as a wide one, if it has a place. -/
def ofNat? (number : Nat) : Option Wide :=
  if small : number < limit 16 then some ⟨number, small⟩ else none

/-- A 64-bit number as a wide one. -/
def ofWord (word : UInt64) : Wide := ⟨word.toNat, Nat.lt_trans word.toNat_lt (by decide)⟩

/-- A wide number as a 64-bit one, if it has a place there. -/
def toWord? (wide : Wide) : Option UInt64 :=
  if wide.toNat < UInt64.size then some (UInt64.ofNat wide.toNat) else none

def add? (left right : Wide) : Option Wide := ofNat? (left.toNat + right.toNat)

def sub? (left right : Wide) : Option Wide :=
  if right.toNat ≤ left.toNat then ofNat? (left.toNat - right.toNat) else none

def mul? (left right : Wide) : Option Wide := ofNat? (left.toNat * right.toNat)

def div? (left right : Wide) : Option Wide :=
  if right.toNat = 0 then none else ofNat? (left.toNat / right.toNat)

/-- A quotient rounded up: the quotient rounded down of a numerator that is larger by one less than
the denominator. -/
def ceilDiv? (numerator denominator : Wide) : Option Wide := do
  let sum ← numerator.add? denominator
  let raised ← sum.sub? (ofWord 1)
  raised.div? denominator

@[simp] theorem toNat_ofWord (word : UInt64) : (ofWord word).toNat = word.toNat := rfl

theorem ofNat?_eq_some_iff : ofNat? number = some result ↔ result.toNat = number := by
  unfold ofNat?
  split
  · rw [Option.some.injEq, Wide.mk.injEq]
    exact eq_comm
  · next large =>
      constructor
      · intro impossible
        cases impossible
      · intro same
        exact absurd (same ▸ result.toNat_lt) large

theorem add?_eq_some_iff :
    left.add? right = some result ↔ result.toNat = left.toNat + right.toNat :=
  ofNat?_eq_some_iff

theorem mul?_eq_some_iff :
    left.mul? right = some result ↔ result.toNat = left.toNat * right.toNat :=
  ofNat?_eq_some_iff

/-- A difference is exact: it and what was taken away are the number again. -/
theorem sub?_eq_some_iff :
    left.sub? right = some result ↔ result.toNat + right.toNat = left.toNat := by
  unfold sub?
  split
  · rw [ofNat?_eq_some_iff]
    omega
  · constructor
    · intro impossible
      cases impossible
    · omega

theorem div?_eq_some_iff (nonzero : right.toNat ≠ 0) :
    left.div? right = some result ↔ result.toNat = left.toNat / right.toNat := by
  rw [div?, if_neg nonzero, ofNat?_eq_some_iff]

/-- A quotient is rounded up if the sum in front of the division has a place. -/
theorem ceilDiv?_eq_some_iff (nonzero : denominator.toNat ≠ 0)
    (small : numerator.toNat + denominator.toNat < limit 16) :
    numerator.ceilDiv? denominator = some result ↔
      result.toNat = (numerator.toNat + denominator.toNat - 1) / denominator.toNat := by
  have sum : numerator.add? denominator = some ⟨_, small⟩ := add?_eq_some_iff.mpr rfl
  have raisedSmall : numerator.toNat + denominator.toNat - 1 < limit 16 := by omega
  have raised : sub? ⟨_, small⟩ (ofWord 1) = some ⟨_, raisedSmall⟩ := by
    rw [sub?_eq_some_iff]
    exact Nat.sub_add_cancel (by omega)
  rw [ceilDiv?, sum, Option.bind_eq_bind, Option.bind_some, raised, Option.bind_some]
  exact div?_eq_some_iff nonzero

/-- A wide number becomes a 64-bit one of the same value. -/
theorem toWord?_eq_some_iff : result.toWord? = some word ↔ word.toNat = result.toNat := by
  have wordSmall : word.toNat < UInt64.size := word.toNat_lt
  unfold toWord?
  split
  · next small =>
      rw [Option.some.injEq, ← UInt64.toNat_inj, UInt64.toNat_ofNat_of_lt' small]
      exact eq_comm
  · constructor
    · intro impossible
      cases impossible
    · omega

theorem toWord?_eq_none_iff : result.toWord? = none ↔ UInt64.size ≤ result.toNat := by
  simp [toWord?]

end Wide

end TokenAccounts
