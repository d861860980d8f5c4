import Mathlib.Data.List.DropRight
import TokenAccounts.Amount.Plain

/-!
# Amounts as decimals and back

The text of an amount is its digits with a point among them, and the digits are what the text is
read as.  Main statement: the text is read as the amount again, with all places or without those
that are superfluous.
-/

namespace TokenAccounts

namespace Amount

variable {text whole fraction front back rest : List Char} {character : Char}
variable {amount : UInt64} {decimals : UInt8} {places : Nat}

/-! ## Digits -/

/-- Whether a text is all decimal digits. -/
def AllDigits (text : List Char) : Prop := ∀ character ∈ text, character.isDigit = true

instance (text : List Char) : Decidable (AllDigits text) :=
  List.decidableBAll (fun character : Char => character.isDigit = true) text

theorem AllDigits.append (frontDigits : AllDigits front) (backDigits : AllDigits back) :
    AllDigits (front ++ back) :=
  List.forall_mem_append.mpr ⟨frontDigits, backDigits⟩

theorem AllDigits.mono (digits : AllDigits text) (within : rest ⊆ text) : AllDigits rest :=
  fun character member => digits character (within member)

/-- A point is no digit. -/
theorem AllDigits.point_notMem (digits : AllDigits text) : '.' ∉ text := by
  intro member
  have isDigit := digits '.' member
  contradiction

theorem allDigits_replicate_zero (count : Nat) : AllDigits (List.replicate count '0') := by
  intro character member
  rw [List.eq_of_mem_replicate member]
  decide

theorem allDigits_wholeText (number : Nat) : AllDigits (wholeText number) :=
  fun _ => Nat.isDigit_of_mem_toDigits (by decide) (by decide)

theorem utf8ByteSize_ofList_cons {first : Char} (ascii : first.toNat ≤ 127) (rest : List Char) :
    (String.ofList (first :: rest)).utf8ByteSize = (String.ofList rest).utf8ByteSize + 1 := by
  rw [String.ofList_cons, String.utf8ByteSize_append, String.utf8ByteSize_singleton,
    Char.utf8Size_eq_one_iff.mpr ascii, Nat.add_comm]

/-- A digit takes one byte, so that digits are counted alike as characters and as bytes. -/
theorem AllDigits.utf8ByteSize_eq (digits : AllDigits text) :
    (String.ofList text).utf8ByteSize = text.length := by
  induction text with
  | nil => rfl
  | cons first rest ih =>
      rcases List.forall_mem_cons.mp digits with ⟨firstDigit, restDigits⟩
      have ascii : first.toNat ≤ 127 :=
        Nat.le_trans (Char.isDigit_iff_toNat.mp firstDigit).2 (by decide)
      rw [utf8ByteSize_ofList_cons ascii, ih restDigits, List.length_cons]

theorem ofDigits_wholeText (number : Nat) : ofDigits (wholeText number) = number :=
  Nat.ofDigitChars_ten_toDigits

theorem allDigits_paddedDigits (places number : Nat) : AllDigits (paddedDigits places number) :=
  (allDigits_replicate_zero _).append (allDigits_wholeText number)

theorem le_length_paddedDigits (places number : Nat) :
    places ≤ (paddedDigits places number).length := by
  simp only [paddedDigits, List.length_append, List.length_replicate]
  omega

/-- Zeros in front do not change the number. -/
theorem ofDigits_paddedDigits (places number : Nat) :
    ofDigits (paddedDigits places number) = number := by
  rw [paddedDigits, ofDigits, Nat.ofDigitChars_append, Nat.ofDigitChars_replicate_zero,
    Nat.mul_zero]
  exact ofDigits_wholeText number

/-! ## Trimming -/

theorem trimEnd_append_of_ne {kept : Char} (different : kept ≠ character) (rest : List Char) :
    trimEnd character (front ++ kept :: rest) = front ++ kept :: trimEnd character rest := by
  -- From the right, where trimming begins.
  induction rest using List.reverseRecOn with
  | nil => exact List.rdropWhile_concat_neg _ _ _ (by simpa using different)
  | append_singleton rest last ih =>
      have apart : front ++ kept :: (rest ++ [last]) = front ++ kept :: rest ++ [last] := by simp
      rw [apart]
      by_cases same : last = character
      · have trimmed (text : List Char) : trimEnd character (text ++ [last]) =
            trimEnd character text :=
          List.rdropWhile_concat_pos _ _ _ (by simpa using same)
        rw [trimmed, trimmed, ih]
      · have untouched (text : List Char) : trimEnd character (text ++ [last]) = text ++ [last] :=
          List.rdropWhile_concat_neg _ _ _ (by simpa using same)
        rw [untouched, untouched, apart]

/-- Nothing is trimmed where the end is free of the character. -/
theorem trimEnd_append_of_notMem (nonempty : back ≠ []) (absent : character ∉ back) :
    trimEnd character (front ++ back) = front ++ back := by
  apply List.rdropWhile_eq_self_iff.mpr
  intro _ trimmed
  rw [List.getLast_append_of_ne_nil _ nonempty, beq_iff_eq] at trimmed
  exact absent (trimmed ▸ List.getLast_mem nonempty)

theorem trimEnd_of_notMem (absent : character ∉ text) : trimEnd character text = text := by
  cases text with
  | nil => rfl
  | cons first rest =>
      have untouched : trimEnd character ([] ++ first :: rest) = [] ++ first :: rest :=
        trimEnd_append_of_notMem (List.cons_ne_nil first rest) absent
      exact untouched

theorem trimEnd_trimEnd (character : Char) (text : List Char) :
    trimEnd character (trimEnd character text) = trimEnd character text :=
  List.rdropWhile_idempotent _ text

theorem trimEnd_subset (character : Char) (text : List Char) : trimEnd character text ⊆ text :=
  (List.rdropWhile_prefix _ text).subset

/-- What was trimmed is put back by as many characters as are missing. -/
theorem trimEnd_append_replicate (character : Char) (text : List Char) :
    trimEnd character text ++
      List.replicate (text.length - (trimEnd character text).length) character = text := by
  have parts : trimEnd character text ++ text.rtakeWhile (· == character) = text :=
    List.rdropWhile_append_rtakeWhile
  have lengths := congrArg List.length parts
  rw [List.length_append] at lengths
  have trimmed : text.rtakeWhile (· == character) =
      List.replicate (text.length - (trimEnd character text).length) character := by
    apply List.eq_replicate_iff.mpr
    refine ⟨by omega, ?_⟩
    intro other member
    have passed := List.mem_rtakeWhile_imp member
    exact beq_iff_eq.mp passed
  rw [← trimmed, parts]

theorem getLast?_trimEnd (character : Char) (text : List Char) :
    (trimEnd character text).getLast? ≠ some character := by
  intro last
  have nonempty : trimEnd character text ≠ [] := by
    intro none
    rw [none] at last
    cases last
  have kept := List.rdropWhile_last_not (· == character) text nonempty
  rw [List.getLast?_eq_getLast_of_ne_nil nonempty, Option.some.injEq] at last
  exact kept (beq_iff_eq.mpr last)

/-- From a text with a run of the character at its end, just the run is taken. -/
theorem trimEnd_append_run (last : front.getLast? ≠ some character) (count : Nat) :
    trimEnd character (front ++ List.replicate count character) = front := by
  induction count with
  | zero =>
      rw [List.replicate_zero, List.append_nil]
      apply List.rdropWhile_eq_self_iff.mpr
      intro nonempty trimmed
      rw [beq_iff_eq] at trimmed
      exact last (trimmed ▸ List.getLast?_eq_getLast_of_ne_nil nonempty)
  | succ count ih =>
      rw [List.replicate_succ', ← List.append_assoc]
      exact (List.rdropWhile_concat_pos (· == character) _ _ (beq_self_eq_true character)).trans ih

/-! ## Reading digits -/

/-- More digits make a number no smaller. -/
theorem le_ofDigitChars (text : List Char) (soFar : Nat) :
    soFar ≤ Nat.ofDigitChars 10 text soFar := by
  rw [Nat.ofDigitChars_eq_ofDigitChars_zero]
  have scaled : soFar ≤ 10 ^ text.length * soFar :=
    Nat.le_mul_of_pos_left soFar (Nat.pow_pos (by decide))
  omega

/-- Digits are read as their number, or refused where it is too large. -/
theorem readDigits_of_allDigits (digits : AllDigits text) {soFar : Nat}
    (small : soFar < UInt64.size) :
    readDigits soFar text =
      let number := Nat.ofDigitChars 10 text soFar
      if number < UInt64.size then .ok (UInt64.ofNat number) else .error .overflow := by
  induction text generalizing soFar with
  | nil => simp [readDigits, small]
  | cons first rest ih =>
      rcases List.forall_mem_cons.mp digits with ⟨firstDigit, restDigits⟩
      rw [readDigits, if_pos firstDigit, Nat.ofDigitChars_cons]
      simp only
      split
      · next nextSmall => exact ih restDigits nextSmall
      · next tooLarge =>
          -- The number only grows, so that all digits make it too large as well.
          have larger := le_ofDigitChars rest (10 * soFar + (first.toNat - '0'.toNat))
          rw [if_neg (by omega)]

theorem readWord_of_allDigits (digits : AllDigits text) (nonempty : text ≠ []) :
    readWord text =
      if ofDigits text < UInt64.size then .ok (UInt64.ofNat (ofDigits text))
      else .error .overflow := by
  have read : readWord text = readDigits 0 text := by
    unfold readWord
    split
    · contradiction
    · have sign := digits '+' (by simp)
      contradiction
    · have sign := digits '+' (by simp)
      contradiction
    · rfl
  rw [read, readDigits_of_allDigits digits (by decide)]
  rfl

/-! ## Reading a text -/

theorem splitAtPoints_of_notMem (absent : '.' ∉ text) : splitAtPoints text = (text, []) := by
  induction text with
  | nil => rfl
  | cons first rest ih =>
      rcases List.ne_and_not_mem_of_not_mem_cons absent with ⟨noPoint, restAbsent⟩
      rw [splitAtPoints, ih restAbsent]
      exact if_neg (Ne.symm noPoint)

theorem splitAtPoints_append (absent : '.' ∉ whole) (rest : List Char) :
    splitAtPoints (whole ++ '.' :: rest) =
      (whole, (splitAtPoints rest).1 :: (splitAtPoints rest).2) := by
  induction whole with
  | nil => rfl
  | cons first whole ih =>
      rcases List.ne_and_not_mem_of_not_mem_cons absent with ⟨noPoint, restAbsent⟩
      rw [List.cons_append, splitAtPoints, ih restAbsent]
      exact if_neg (Ne.symm noPoint)

/-- Whether a text is a whole part and a fraction around a point; there may be no point, and then
there is no fraction. -/
inductive Written (whole : List Char) : (fraction text : List Char) → Prop
  | bare : Written whole [] whole
  | pointed (fraction : List Char) : Written whole fraction (whole ++ '.' :: fraction)

/-- Whether a text is digits around a point. -/
structure DigitsAround (whole fraction text : List Char) : Prop where
  written : Written whole fraction text
  whole_digits : AllDigits whole
  fraction_digits : AllDigits fraction

/-- Digits around a point, which is there only if something follows it. -/
def joinAtPoint (whole fraction : List Char) : List Char :=
  if fraction = [] then whole else whole ++ '.' :: fraction

theorem written_joinAtPoint (whole fraction : List Char) :
    Written whole fraction (joinAtPoint whole fraction) := by
  unfold joinAtPoint
  split
  · next none =>
      rw [none]
      exact .bare
  · exact .pointed fraction

/-- The digits of whole part and fraction with a digit for every place, if there are as many. -/
def filledPlaces (whole fraction : List Char) (places : Nat) : List Char :=
  let fraction := trimEnd '0' fraction
  whole ++ fraction ++ List.replicate (places - fraction.length) '0'

theorem AllDigits.filledPlaces (wholeDigits : AllDigits whole) (fractionDigits : AllDigits fraction)
    (places : Nat) : AllDigits (filledPlaces whole fraction places) :=
  (wholeDigits.append (fractionDigits.mono (trimEnd_subset _ _))).append
    (allDigits_replicate_zero _)

theorem filledPlaces_ne_nil (something : whole ≠ [] ∨ trimEnd '0' fraction ≠ []) (places : Nat) :
    filledPlaces whole fraction places ≠ [] := by
  rw [filledPlaces, ne_eq, List.append_eq_nil_iff, List.append_eq_nil_iff, and_assoc, not_and_or]
  exact something.imp_right fun kept nothing => kept nothing.1

/-- A whole part and a fraction run together, with a zero for every place that the bytes of the
fraction leave. -/
def glued (whole fraction : List Char) (places : Nat) : List Char :=
  whole ++ fraction ++ List.replicate (places - (String.ofList fraction).utf8ByteSize) '0'

/-- The two parts are run together if there is something in them and the fraction has no more places
than there are. -/
theorem alignPlaces?_eq (whole fraction : List Char) (places : Nat) :
    alignPlaces? whole fraction places =
      let kept := trimEnd '0' fraction
      if (whole ≠ [] ∨ kept ≠ []) ∧ (String.ofList kept).utf8ByteSize ≤ places then
        some (glued whole kept places)
      else none := by
  simp only [alignPlaces?, glued]
  rw [← ite_not]
  apply if_congr _ rfl rfl
  rw [Bool.or_eq_true, Bool.and_eq_true, decide_eq_true_iff, List.isEmpty_iff, List.isEmpty_iff,
    not_or, not_and_or, Nat.not_lt]

theorem alignPlaces?_of_allDigits (digits : AllDigits fraction) :
    alignPlaces? whole fraction places =
      if (whole ≠ [] ∨ trimEnd '0' fraction ≠ []) ∧ (trimEnd '0' fraction).length ≤ places then
        some (filledPlaces whole fraction places)
      else none := by
  have bytes := (digits.mono (trimEnd_subset '0' fraction)).utf8ByteSize_eq
  simp only [alignPlaces?_eq, glued, filledPlaces, bytes]

theorem DigitsAround.unscaledDigits?_eq (around : DigitsAround whole fraction text) (places : Nat) :
    unscaledDigits? text places = alignPlaces? whole fraction places := by
  rcases around with ⟨written, wholeDigits, fractionDigits⟩
  unfold unscaledDigits?
  cases written with
  | bare => rw [splitAtPoints_of_notMem wholeDigits.point_notMem]
  | pointed =>
      rw [splitAtPoints_append wholeDigits.point_notMem,
        splitAtPoints_of_notMem fractionDigits.point_notMem]

/-- Digits around a point are read as the number of the digits with every place filled, if there
are any that count and the fraction has no more places than there are. -/
theorem DigitsAround.ofText_eq {text : String} (around : DigitsAround whole fraction text.toList)
    (something : whole ≠ [] ∨ trimEnd '0' fraction ≠ [])
    (few : (trimEnd '0' fraction).length ≤ decimals.toNat) :
    ofText text decimals =
      let number := ofDigits (filledPlaces whole fraction decimals.toNat)
      if number < UInt64.size then .ok (UInt64.ofNat number) else .error .amountOverflow := by
  have read := readWord_of_allDigits
    (around.whole_digits.filledPlaces around.fraction_digits decimals.toNat)
    (filledPlaces_ne_nil something decimals.toNat)
  rw [ofText, around.unscaledDigits?_eq, alignPlaces?_of_allDigits around.fraction_digits,
    if_pos ⟨something, few⟩]
  simp only [read]
  by_cases small : ofDigits (filledPlaces whole fraction decimals.toNat) < UInt64.size
  · simp only [if_pos small]
  · simp only [if_neg small]

/-! ## Showing an amount -/

/-- What stands around the point of an amount that is shown with all its places. -/
structure Places (amount : UInt64) (decimals : UInt8) (whole fraction : List Char) : Prop where
  append_eq : whole ++ fraction = paddedDigits (decimals.toNat + 1) amount.toNat
  length_fraction : fraction.length = decimals.toNat
  whole_ne_nil : whole ≠ []

/-- An amount is shown as what stands around its point. -/
theorem exists_places (amount : UInt64) (decimals : UInt8) :
    ∃ whole fraction, Places amount decimals whole fraction ∧
      toDigits amount decimals = joinAtPoint whole fraction := by
  have long := le_length_paddedDigits (decimals.toNat + 1) amount.toNat
  unfold toDigits
  generalize digits : paddedDigits (decimals.toNat + 1) amount.toNat = text at long ⊢
  have length_fraction : (text.drop (text.length - decimals.toNat)).length = decimals.toNat := by
    rw [List.length_drop]
    omega
  have length_whole : 0 < (text.take (text.length - decimals.toNat)).length := by
    rw [List.length_take]
    omega
  refine ⟨_, _, ⟨?_, length_fraction, List.ne_nil_of_length_pos length_whole⟩, ?_⟩
  · rw [List.take_append_drop, digits]
  · by_cases none : decimals.toNat = 0
    · simp only [digits, if_pos none]
      simp [none, joinAtPoint]
    · have kept : text.drop (text.length - decimals.toNat) ≠ [] :=
        List.ne_nil_of_length_pos (by omega)
      simp only [digits, if_neg none, joinAtPoint, if_neg kept]

namespace Places

variable (held : Places amount decimals whole fraction)

include held

theorem allDigits : AllDigits (whole ++ fraction) := by
  rw [held.append_eq]
  exact allDigits_paddedDigits _ _

theorem whole_allDigits : AllDigits whole :=
  held.allDigits.mono (List.subset_append_left whole fraction)

theorem fraction_allDigits : AllDigits fraction :=
  held.allDigits.mono (List.subset_append_right whole fraction)

/-- The digits denote the amount. -/
theorem ofDigits_eq : ofDigits (whole ++ fraction) = amount.toNat := by
  rw [held.append_eq, ofDigits_paddedDigits]

/-- Trimming takes zeros out of the fraction, and the point if nothing is left of that. -/
theorem trim_joinAtPoint :
    trimEnd '.' (trimEnd '0' (whole ++ '.' :: fraction)) =
      joinAtPoint whole (trimEnd '0' fraction) := by
  have wholeDigits := held.whole_allDigits
  have trimmedDigits := held.fraction_allDigits.mono (trimEnd_subset '0' fraction)
  rw [trimEnd_append_of_ne (by decide), joinAtPoint]
  split
  · next trimmed =>
      rw [trimmed]
      calc
        trimEnd '.' (whole ++ ['.']) = trimEnd '.' whole :=
          List.rdropWhile_concat_pos _ _ _ (by decide)
        _ = whole := trimEnd_of_notMem wholeDigits.point_notMem
  · next kept =>
      have apart : whole ++ '.' :: trimEnd '0' fraction =
          (whole ++ ['.']) ++ trimEnd '0' fraction := by simp
      rw [apart]
      exact trimEnd_append_of_notMem kept trimmedDigits.point_notMem

/-- With its trimmed zeros filled in again, the fraction is as it was. -/
theorem filledPlaces_eq : filledPlaces whole fraction decimals.toNat = whole ++ fraction := by
  simp only [filledPlaces]
  rw [← held.length_fraction, List.append_assoc, trimEnd_append_replicate]

/-- What is shown is read as the amount, with any number of zeros at the end of its fraction. -/
theorem ofText_joinAtPoint {part : List Char} (digits : AllDigits part)
    (same : trimEnd '0' part = trimEnd '0' fraction) :
    ofText (String.ofList (joinAtPoint whole part)) decimals = .ok amount := by
  have around : DigitsAround whole part (String.ofList (joinAtPoint whole part)).toList := by
    rw [String.toList_ofList]
    exact ⟨written_joinAtPoint _ _, held.whole_allDigits, digits⟩
  have few : (trimEnd '0' part).length ≤ decimals.toNat := by
    rw [same, ← held.length_fraction]
    exact (List.rdropWhile_prefix _ fraction).length_le
  have filled : filledPlaces whole part decimals.toNat = whole ++ fraction := by
    rw [← held.filledPlaces_eq, filledPlaces, same, filledPlaces]
  rw [around.ofText_eq (.inl held.whole_ne_nil) few, filled, held.ofDigits_eq]
  simp only [if_pos amount.toNat_lt_size, UInt64.ofNat_toNat]

end Places

theorem toTrimmedDigits_eq (held : Places amount decimals whole fraction)
    (shown : toDigits amount decimals = joinAtPoint whole fraction) :
    toTrimmedDigits amount decimals = joinAtPoint whole (trimEnd '0' fraction) := by
  have places : decimals = 0 ↔ fraction = [] := by
    rw [← List.length_eq_zero_iff, held.length_fraction, ← UInt8.toNat_inj]
    rfl
  simp only [toTrimmedDigits, shown, places]
  split
  · next bare =>
      rw [bare]
      rfl
  · next kept => rw [joinAtPoint, if_neg kept, held.trim_joinAtPoint]

/-- The text of an amount with all its places is read as the amount. -/
theorem ofText_toText (amount : UInt64) (decimals : UInt8) :
    ofText (toText amount decimals) decimals = .ok amount := by
  rcases exists_places amount decimals with ⟨whole, fraction, held, shown⟩
  rw [toText, shown]
  exact held.ofText_joinAtPoint held.fraction_allDigits rfl

/-- The text of an amount without superfluous places is read as the amount. -/
theorem ofText_toTrimmedText (amount : UInt64) (decimals : UInt8) :
    ofText (toTrimmedText amount decimals) decimals = .ok amount := by
  rcases exists_places amount decimals with ⟨whole, fraction, held, shown⟩
  rw [toTrimmedText, toTrimmedDigits_eq held shown]
  exact held.ofText_joinAtPoint (held.fraction_allDigits.mono (trimEnd_subset '0' fraction))
    (trimEnd_trimEnd '0' fraction)

end Amount

end TokenAccounts
