import TokenAccounts.Bytes.Base64

/-!
# Base 64 read back

Main statement: what is written of bytes reads back as those bytes.
-/

namespace TokenAccounts

namespace Base64

variable {value first second third fourth : Nat}

/-- The character for six bits stands for them. -/
theorem value?_digit (small : value < 64) : value? (digit value) = some value := by
  decide +revert +kernel

/-- No six bits have the filling as their character. -/
theorem digit_ne_filling (small : value < 64) : digit value ≠ '=' := by
  decide +revert +kernel

/-- Four characters without filling are read as three bytes, and the rest on its own. -/
theorem decode?_four (firstSmall : first < 64) (secondSmall : second < 64) (thirdSmall : third < 64)
    (fourthSmall : fourth < 64) (rest : List Char) :
    decode? (digit first :: digit second :: digit third :: digit fourth :: rest) =
      (decode? rest).map fun bytes =>
        UInt8.ofNat (first * 4 + second / 16) :: UInt8.ofNat (second % 16 * 16 + third / 4) ::
          UInt8.ofNat (third % 4 * 64 + fourth) :: bytes := by
  rw [decode?, value?_digit firstSmall, value?_digit secondSmall, value?_digit thirdSmall,
    value?_digit fourthSmall]
  · cases decode? rest <;> rfl
  · intro _ filling _
    exact digit_ne_filling fourthSmall filling
  · intro filling _
    exact digit_ne_filling fourthSmall filling

/-- What is written of bytes reads back as those bytes. -/
theorem decode?_encode (bytes : List UInt8) : decode? (encode bytes) = some bytes := by
  induction bytes using encode.induct with
  | case1 => rfl
  | case2 first =>
      have firstSmall := first.toNat_lt
      have firstBack : first.toNat / 4 * 4 + first.toNat % 4 * 16 / 16 = first.toNat := by omega
      rw [encode, decode?, value?_digit (by omega), value?_digit (by omega)]
      simp only [bind, Option.bind_some, firstBack, UInt8.ofNat_toNat]
      exact if_pos (by omega)
  | case3 first second =>
      have firstSmall := first.toNat_lt
      have secondSmall := second.toNat_lt
      have firstBack : first.toNat / 4 * 4 + (first.toNat % 4 * 16 + second.toNat / 16) / 16 =
          first.toNat := by omega
      have secondBack : (first.toNat % 4 * 16 + second.toNat / 16) % 16 * 16 +
          second.toNat % 16 * 4 / 4 = second.toNat := by omega
      rw [encode, decode?, value?_digit (by omega), value?_digit (by omega),
        value?_digit (by omega)]
      · simp only [bind, Option.bind_some, firstBack, secondBack, UInt8.ofNat_toNat]
        exact if_pos (by omega)
      · exact digit_ne_filling (by omega)
  | case4 first second third rest ih =>
      have firstSmall := first.toNat_lt
      have secondSmall := second.toNat_lt
      have thirdSmall := third.toNat_lt
      have firstBack : first.toNat / 4 * 4 + (first.toNat % 4 * 16 + second.toNat / 16) / 16 =
          first.toNat := by omega
      have secondBack : (first.toNat % 4 * 16 + second.toNat / 16) % 16 * 16 +
          (second.toNat % 16 * 4 + third.toNat / 64) / 4 = second.toNat := by omega
      have thirdBack : (second.toNat % 16 * 4 + third.toNat / 64) % 4 * 64 + third.toNat % 64 =
          third.toNat := by omega
      rw [encode, decode?_four (by omega) (by omega) (by omega) (by omega), ih, Option.map_some,
        firstBack, secondBack, thirdBack]
      simp only [UInt8.ofNat_toNat]

end Base64

end TokenAccounts
