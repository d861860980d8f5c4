import TokenAccounts.Proofs.Amount.Numeral

/-!
# How amounts are shown

An amount is shown as the number of whole tokens that it is, exactly and in one way: no zero stands
in front that could be left out, and the places are all there or end in a digit that counts.  So
the text tells the amount.
-/

namespace TokenAccounts

namespace Amount

variable {whole fraction : List Char} {number : ℕ} {amount : UInt64} {decimals : UInt8}

/-- The numeral of a number other than zero does not start with a zero. -/
theorem head?_wholeText_ne_zero (nonzero : number ≠ 0) : (wholeText number).head? ≠ some '0' := by
  induction number using Nat.strongRecOn with
  | ind number ih =>
      rcases Nat.lt_or_ge number 10 with small | large
      · rw [wholeText, Nat.toDigits_of_lt_base small]
        simpa using nonzero
      · rw [wholeText, Nat.toDigits_of_base_le (by decide) large,
          List.head?_append_of_ne_nil _ Nat.toDigits_ne_nil]
        exact ih (number / 10) (by omega) (by omega)

/-- A whole part that is shown is zero or does not start with one: it is padded just where it would
be empty without. -/
theorem Places.leading (held : Places amount decimals whole fraction) :
    whole = ['0'] ∨ whole.head? ≠ some '0' := by
  have parts := held.append_eq
  simp only [paddedDigits] at parts
  have lengths := congrArg List.length parts
  rw [List.length_append, List.length_append, List.length_replicate,
    held.length_fraction] at lengths
  by_cases few : (wholeText amount.toNat).length ≤ decimals.toNat
  · -- There is padding, and the whole part is the first character of it.
    left
    have single : whole.length = 1 := by omega
    rcases List.length_eq_one_iff.mp single with ⟨first, rfl⟩
    have padding : decimals.toNat + 1 - (wholeText amount.toNat).length =
        (decimals.toNat - (wholeText amount.toNat).length) + 1 := by omega
    rw [padding, List.replicate_succ, List.cons_append, List.cons_append] at parts
    rw [(List.cons.inj parts).1]
  · have padding : decimals.toNat + 1 - (wholeText amount.toNat).length = 0 := by omega
    rw [padding, List.replicate_zero, List.nil_append] at parts
    by_cases nothing : amount.toNat = 0
    · left
      rw [nothing, wholeText, Nat.toDigits_zero] at parts
      rcases List.append_eq_singleton_iff.mp parts with ⟨empty, -⟩ | ⟨zero, -⟩
      · exact absurd empty held.whole_ne_nil
      · exact zero
    · right
      rw [← List.head?_append_of_ne_nil _ held.whole_ne_nil, parts]
      exact head?_wholeText_ne_zero nothing

/-- In units of the last place, what is shown is the amount. -/
theorem Places.value (held : Places amount decimals whole fraction) :
    placesValue whole fraction = amount.toNat / 10 ^ decimals.toNat := by
  rw [placesValue, held.ofDigits_eq, held.length_fraction]

/-- Whether a text shows a number by these digits: they stand around a point, which is there only if
something follows it, and no zero stands in front that could be left out. -/
structure Shows (text whole fraction : List Char) (number : ℚ) : Prop where
  text_eq : text = joinAtPoint whole fraction
  whole_digits : AllDigits whole
  fraction_digits : AllDigits fraction
  whole_ne_nil : whole ≠ []
  leading : whole = ['0'] ∨ whole.head? ≠ some '0'
  value : placesValue whole fraction = number

theorem Places.shows_toText (held : Places amount decimals whole fraction)
    (shown : toDigits amount decimals = joinAtPoint whole fraction) :
    Shows (toText amount decimals).toList whole fraction (amount.toNat / 10 ^ decimals.toNat) := by
  refine ⟨?_, held.whole_allDigits, held.fraction_allDigits, held.whole_ne_nil, held.leading,
    held.value⟩
  rw [toText, String.toList_ofList, shown]

theorem Places.shows_toTrimmedText (held : Places amount decimals whole fraction)
    (shown : toDigits amount decimals = joinAtPoint whole fraction) :
    Shows (toTrimmedText amount decimals).toList whole (trimEnd '0' fraction)
      (amount.toNat / 10 ^ decimals.toNat) := by
  refine ⟨?_, held.whole_allDigits, held.fraction_allDigits.mono (trimEnd_subset '0' fraction),
    held.whole_ne_nil, held.leading, ?_⟩
  · rw [toTrimmedText, String.toList_ofList, toTrimmedDigits_eq held shown]
  · rw [placesValue_trimEnd, held.value]

/-- What is shown ends in a digit. -/
theorem Shows.getLast?_ne_point {text : List Char} {number : ℚ}
    (shows : Shows text whole fraction number) : text.getLast? ≠ some '.' := by
  intro point
  rw [shows.text_eq, joinAtPoint] at point
  split at point
  · exact shows.whole_digits.point_notMem (List.mem_of_getLast? point)
  · next kept =>
      have behind : (whole ++ '.' :: fraction).getLast? = fraction.getLast? := by
        rw [List.append_cons]
        exact List.getLast?_append_of_ne_nil _ kept
      rw [behind] at point
      exact shows.fraction_digits.point_notMem (List.mem_of_getLast? point)

/-- What is read as the amount again is not the text of two amounts. -/
theorem injective_of_ofText {written : UInt64 → String}
    (readBack : ∀ amount, ofText (written amount) decimals = .ok amount) :
    Function.Injective written := by
  intro first second same
  have read := readBack first
  rw [same, readBack second] at read
  exact (Except.ok.inj read).symm

/-- An amount is shown as its number of whole tokens, with a place for each decimal; the shorter
text shows the same number with the same whole part and ends in no zero that could be left out, nor
in a point.  Both are read as the amount, so that no two amounts are shown alike. -/
theorem shown_exactly (amount : UInt64) (decimals : UInt8) :
    (∃ whole fraction kept,
      Shows (toText amount decimals).toList whole fraction (amount.toNat / 10 ^ decimals.toNat) ∧
      fraction.length = decimals.toNat ∧
      Shows (toTrimmedText amount decimals).toList whole kept
        (amount.toNat / 10 ^ decimals.toNat) ∧
      kept.getLast? ≠ some '0' ∧ (toTrimmedText amount decimals).toList.getLast? ≠ some '.') ∧
    ofText (toText amount decimals) decimals = .ok amount ∧
    ofText (toTrimmedText amount decimals) decimals = .ok amount ∧
    Function.Injective (toText · decimals) ∧ Function.Injective (toTrimmedText · decimals) := by
  refine ⟨?shown, ofText_toText amount decimals, ofText_toTrimmedText amount decimals,
    injective_of_ofText fun amount => ofText_toText amount decimals,
    injective_of_ofText fun amount => ofText_toTrimmedText amount decimals⟩
  case shown =>
    rcases exists_places amount decimals with ⟨whole, fraction, held, shown⟩
    refine ⟨whole, fraction, trimEnd '0' fraction, ?_, held.length_fraction, ?_,
      getLast?_trimEnd '0' fraction, ?_⟩
    · exact held.shows_toText shown
    · exact held.shows_toTrimmedText shown
    · exact (held.shows_toTrimmedText shown).getLast?_ne_point

end Amount

end TokenAccounts
