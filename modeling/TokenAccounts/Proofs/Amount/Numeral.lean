import Mathlib.Algebra.Field.Rat
import Mathlib.Tactic.FieldSimp
import Mathlib.Tactic.NormNum
import TokenAccounts.Proofs.Amount.Plain

/-!
# Texts as numbers

A numeral denotes a rational number, which an amount counts in units of its last decimal place.
Main statement: digits around a point are read as exactly the number that they denote, or refused
for the one reason that stands against it.
-/

namespace TokenAccounts

namespace Amount

variable {whole fraction : List Char} {places : ℕ}

/-! ## The number of a numeral -/

/-- The number that digits around a point denote. -/
def placesValue (whole fraction : List Char) : ℚ :=
  ofDigits (whole ++ fraction) / 10 ^ fraction.length

/-- Each zero at the end makes a number ten times as large. -/
theorem ofDigits_append_zeros (text : List Char) (count : ℕ) :
    ofDigits (text ++ List.replicate count '0') = 10 ^ count * ofDigits text := by
  rw [ofDigits, Nat.ofDigitChars_append, Nat.ofDigitChars_replicate_zero]
  rfl

/-- Zeros at the end of a fraction do not change the number. -/
theorem placesValue_append_zeros (whole fraction : List Char) (count : ℕ) :
    placesValue whole (fraction ++ List.replicate count '0') = placesValue whole fraction := by
  rw [placesValue, ← List.append_assoc, ofDigits_append_zeros, List.length_append,
    List.length_replicate, pow_add, placesValue]
  push_cast
  field_simp

theorem placesValue_trimEnd (whole fraction : List Char) :
    placesValue whole (trimEnd '0' fraction) = placesValue whole fraction := by
  rw [← placesValue_append_zeros _ _ (fraction.length - (trimEnd '0' fraction).length),
    trimEnd_append_replicate]

/-- In units of the last place, a number is that of the digits with a zero for every place left. -/
theorem ofDigits_fill (few : fraction.length ≤ places) :
    (ofDigits (whole ++ fraction ++ List.replicate (places - fraction.length) '0') : ℚ) =
      placesValue whole fraction * 10 ^ places := by
  rw [ofDigits_append_zeros, placesValue]
  have power : (10 : ℚ) ^ places = 10 ^ (places - fraction.length) * 10 ^ fraction.length := by
    rw [← pow_add, Nat.sub_add_cancel few]
  rw [power]
  push_cast
  field_simp

theorem ofDigits_filledPlaces (few : (trimEnd '0' fraction).length ≤ places) :
    (ofDigits (filledPlaces whole fraction places) : ℚ) =
      placesValue whole fraction * 10 ^ places := by
  rw [filledPlaces, ofDigits_fill few, placesValue_trimEnd]

/-- Whether a text is a decimal numeral of a number: digits around a point, if there is one, at
least one digit, and at most one plus sign, which stands in front. -/
inductive IsNumeral : List Char → ℚ → Prop
  | unsigned {whole fraction text : List Char} (around : DigitsAround whole fraction text)
      (nonempty : whole ++ fraction ≠ []) : IsNumeral text (placesValue whole fraction)
  | signed {whole fraction text : List Char} (around : DigitsAround whole fraction text)
      (nonempty : whole ++ fraction ≠ []) : IsNumeral ('+' :: text) (placesValue whole fraction)

/-- Whether a text is a numeral of an amount, which is counted in units of the last place. -/
def Represents (text : List Char) (decimals : UInt8) (amount : UInt64) : Prop :=
  ∃ number, IsNumeral text number ∧ number * 10 ^ decimals.toNat = amount.toNat

/-! ## Numerals are read exactly -/

/-- Digits around a point are read as the exact number of units of the last place.  They are refused
if that number has no place in 64 bits, and as a text if there are more places in use than there
are; the zeros at the end of the fraction are in no use. -/
theorem ofText_exact {text : String} (decimals : UInt8) (kept : List Char) (count : ℕ)
    (around : DigitsAround whole fraction text.toList)
    (counts : whole ≠ [] ∨ ∃ digit ∈ fraction, digit ≠ '0')
    (zeros : fraction = kept ++ List.replicate count '0') (last : kept.getLast? ≠ some '0') :
    (kept.length ≤ decimals.toNat →
      ∃ number : ℕ, (number : ℚ) = placesValue whole fraction * 10 ^ decimals.toNat ∧
        (number < UInt64.size → ofText text decimals = .ok (UInt64.ofNat number)) ∧
        (UInt64.size ≤ number → ofText text decimals = .error .amountOverflow)) ∧
    (decimals.toNat < kept.length → ofText text decimals = .error (.invalidUiAmount text)) := by
  have trimmed : trimEnd '0' fraction = kept := zeros ▸ trimEnd_append_run last count
  have something : whole ≠ [] ∨ trimEnd '0' fraction ≠ [] := by
    refine counts.imp_right ?_
    intro nonzero none
    rcases nonzero with ⟨digit, member, different⟩
    rw [← trimmed, none, List.nil_append] at zeros
    exact different (List.eq_of_mem_replicate (zeros ▸ member))
  rw [← trimmed]
  constructor
  · intro few
    refine ⟨_, ofDigits_filledPlaces few, ?_, ?_⟩
    · intro small
      rw [around.ofText_eq something few]
      exact if_pos small
    · intro large
      rw [around.ofText_eq something few]
      exact if_neg (Nat.not_lt.mpr large)
  · intro many
    rw [ofText, around.unscaledDigits?_eq, alignPlaces?_of_allDigits around.fraction_digits, if_neg]
    exact fun fits => Nat.not_lt.mpr fits.2 many

/-- Zeros in front and at the end are passed over, a number that is one too large is refused, and so
is a place too many. -/
theorem reads_padded_numerals :
    ofText "007.0250" 3 = .ok 7025 ∧ ofText "18446744073709551616." 0 = .error .amountOverflow ∧
      ofText ".0250" 2 = .error (.invalidUiAmount ".0250") := by
  have padded : DigitsAround "007".toList "0250".toList "007.0250".toList :=
    ⟨.pointed _, by decide, by decide⟩
  have large : DigitsAround "18446744073709551616".toList [] "18446744073709551616.".toList :=
    ⟨.pointed _, by decide, by decide⟩
  have bare : DigitsAround [] "0250".toList ".0250".toList := ⟨.pointed _, by decide, by decide⟩
  refine ⟨?padded, ?large, ?bare⟩
  case padded =>
    rcases (ofText_exact 3 "025".toList 1 padded (.inl (by decide)) rfl (by decide)).1
      (by decide) with ⟨number, same, small, -⟩
    have digits : ofDigits ("007".toList ++ "0250".toList) = 70250 := by decide
    have units : (70250 : ℚ) / 10 ^ 4 * 10 ^ 3 = 7025 := by norm_num
    rw [placesValue, digits] at same
    have value : number = 7025 := by exact_mod_cast same.trans units
    rw [value] at small
    exact small (by decide)
  case large =>
    rcases (ofText_exact 0 [] 0 large (.inl (by decide)) rfl (by decide)).1 (by decide) with
      ⟨number, same, -, refused⟩
    have digits : ofDigits ("18446744073709551616".toList ++ []) = 18446744073709551616 := by decide
    have units : (18446744073709551616 : ℚ) / 10 ^ 0 * 10 ^ 0 = 18446744073709551616 := by norm_num
    rw [placesValue, digits] at same
    have value : number = 18446744073709551616 := by exact_mod_cast same.trans units
    exact refused (Nat.le_of_eq value.symm)
  case bare =>
    have counts : ∃ digit ∈ "0250".toList, digit ≠ '0' := ⟨'2', by decide, by decide⟩
    exact (ofText_exact 2 "025".toList 1 bare (.inr counts) rfl (by decide)).2 (by decide)

end Amount

end TokenAccounts
