import TokenAccounts.Proofs.Amount.Numeral

/-!
# What is read is a numeral

A text that is read as an amount is a numeral of that amount, with one exception.  The parts around
the point are run together before their digits are read, and the digits may have a sign in front; so
a plus sign is also let through where no digit makes a numeral of the text, or where it is the first
character behind the point.  It then takes the place of a zero.
-/

namespace TokenAccounts

namespace Amount

variable {text whole fraction digits : List Char} {amount : UInt64} {decimals : UInt8}
variable {places soFar : ℕ} {number : ℚ}

/-! ## Where digits are taken from -/

theorem allDigits_of_readDigits (read : readDigits soFar text = .ok amount) : AllDigits text := by
  induction text generalizing soFar with
  | nil =>
      intro character member
      contradiction
  | cons first rest ih =>
      rw [readDigits] at read
      split at read
      · next firstDigit =>
          simp only at read
          split at read
          · exact List.forall_mem_cons.mpr ⟨firstDigit, ih read⟩
          · cases read
      · cases read

/-- What is read as a word is digits of that number, with at most a plus sign in front. -/
theorem exists_digits_of_readWord (read : readWord text = .ok amount) :
    ∃ digits, (text = digits ∨ text = '+' :: digits) ∧ digits ≠ [] ∧ AllDigits digits ∧
      ofDigits digits = amount.toNat := by
  have number (digits : List Char) (readAll : readDigits 0 digits = .ok amount) :
      AllDigits digits ∧ ofDigits digits = amount.toNat := by
    have allDigits := allDigits_of_readDigits readAll
    rw [readDigits_of_allDigits allDigits (by decide)] at readAll
    simp only at readAll
    split at readAll
    · next small =>
        cases readAll
        exact ⟨allDigits, (UInt64.toNat_ofNat_of_lt' small).symm⟩
    · cases readAll
  unfold readWord at read
  split at read
  · cases read
  · cases read
  · next digits notAlone => exact ⟨digits, .inr rfl, notAlone, number digits read⟩
  · next nonempty _ _ => exact ⟨_, .inl rfl, nonempty, number _ read⟩

theorem eq_append_splitAtPoints (text : List Char) :
    text = (splitAtPoints text).1 ++ (splitAtPoints text).2.flatMap ('.' :: ·) := by
  induction text with
  | nil => rfl
  | cons first rest ih =>
      rw [splitAtPoints]
      simp only
      split
      · next point => simp [point, ← ih]
      · simp [← ih]

/-- What digits were taken from is written around at most one point. -/
theorem exists_written (found : unscaledDigits? text places = some digits) :
    ∃ whole fraction, Written whole fraction text ∧
      alignPlaces? whole fraction places = some digits := by
  have parts := eq_append_splitAtPoints text
  unfold unscaledDigits? at found
  split at found
  · next whole same =>
      rw [same] at parts
      simp only [List.flatMap_nil, List.append_nil] at parts
      exact ⟨whole, [], parts ▸ .bare, found⟩
  · next whole fraction same =>
      rw [same] at parts
      simp only [List.flatMap_cons, List.flatMap_nil, List.append_nil] at parts
      exact ⟨whole, fraction, parts ▸ .pointed fraction, found⟩
  · cases found

theorem ofText_eq_ok_iff {text : String} :
    ofText text decimals = .ok amount ↔
      ∃ together, unscaledDigits? text.toList decimals.toNat = some together ∧
        readWord together = .ok amount := by
  unfold ofText
  cases unscaledDigits? text.toList decimals.toNat with
  | none => simp
  | some together =>
      cases read : readWord together with
      | ok word => simp [read]
      | error cause => cases cause <;> simp [read]

/-- What the whole part starts with is what the text starts with. -/
theorem Written.exists_of_cons {first : Char} (written : Written (first :: whole) fraction text) :
    ∃ rest, text = first :: rest ∧ Written whole fraction rest := by
  cases written with
  | bare => exact ⟨whole, rfl, .bare⟩
  | pointed => exact ⟨_, rfl, .pointed fraction⟩

/-! ## Stray signs -/

/-- The texts whose plus sign is not in front of a numeral: there is no digit, or the sign is the
first character behind a point that starts the text. -/
inductive StraySign : List Char → Prop
  | alone : StraySign ['+']
  | inFrontOfPoint : StraySign ['+', '.']
  | behindPoint (rest : List Char) : StraySign ('.' :: '+' :: rest)

theorem DigitsAround.isDigit_or_eq_point {character : Char}
    (around : DigitsAround whole fraction text) (member : character ∈ text) :
    character.isDigit = true ∨ character = '.' := by
  rcases around with ⟨written, wholeDigits, fractionDigits⟩
  cases written with
  | bare => exact .inl (wholeDigits _ member)
  | pointed =>
      rcases List.mem_append.mp member with inWhole | behind
      · exact .inl (wholeDigits _ inWhole)
      · rcases List.mem_cons.mp behind with point | inFraction
        · exact .inr point
        · exact .inl (fractionDigits _ inFraction)

theorem Written.subset (written : Written whole fraction text) : whole ++ fraction ⊆ text := by
  cases written with
  | bare => simp
  | pointed => simp

theorem IsNumeral.exists_digit (numeral : IsNumeral text number) :
    ∃ digit ∈ text, digit.isDigit = true := by
  cases numeral with
  | unsigned around nonempty =>
      rcases List.exists_mem_of_ne_nil _ nonempty with ⟨digit, member⟩
      exact ⟨digit, around.written.subset member,
        around.whole_digits.append around.fraction_digits digit member⟩
  | signed around nonempty =>
      rcases List.exists_mem_of_ne_nil _ nonempty with ⟨digit, member⟩
      exact ⟨digit, List.mem_cons_of_mem _ (around.written.subset member),
        around.whole_digits.append around.fraction_digits digit member⟩

/-- A text with a stray sign is no numeral. -/
theorem StraySign.not_isNumeral (stray : StraySign text) (number : ℚ) :
    ¬ IsNumeral text number := by
  intro numeral
  have digit := numeral.exists_digit
  cases stray with
  | alone => simp at digit
  | inFrontOfPoint => simp at digit
  | behindPoint rest =>
      cases numeral with
      | unsigned around =>
          have sign : '+' ∈ '.' :: '+' :: rest := by simp
          rcases around.isDigit_or_eq_point sign with isDigit | isPoint
          · contradiction
          · contradiction

/-! ## Parts that were run together -/

/-- Where nothing but digits was run together, they stood around a point, and their number is that
of the two parts in units of the last place. -/
theorem value_of_glued (written : Written whole fraction text)
    (few : (String.ofList (trimEnd '0' fraction)).utf8ByteSize ≤ places)
    (allDigits : AllDigits (glued whole (trimEnd '0' fraction) places)) :
    DigitsAround whole fraction text ∧
      placesValue whole fraction * 10 ^ places =
        ofDigits (glued whole (trimEnd '0' fraction) places) := by
  have keptDigits : AllDigits (trimEnd '0' fraction) := allDigits.mono (by simp [glued])
  rw [glued] at allDigits ⊢
  rw [keptDigits.utf8ByteSize_eq] at few allDigits ⊢
  refine ⟨⟨written, allDigits.mono (by simp), ?_⟩, ?_⟩
  · rw [← trimEnd_append_replicate '0' fraction]
    exact keptDigits.append (allDigits_replicate_zero _)
  · rw [ofDigits_fill few, placesValue_trimEnd]

/-- A text that starts with a sign is a numeral with that sign, unless no digit follows. -/
theorem represents_of_signed (written : Written ('+' :: whole) fraction text)
    (few : (String.ofList (trimEnd '0' fraction)).utf8ByteSize ≤ decimals.toNat)
    (allDigits : AllDigits (glued whole (trimEnd '0' fraction) decimals.toNat))
    (read : ofDigits (glued whole (trimEnd '0' fraction) decimals.toNat) = amount.toNat) :
    Represents text decimals amount ∨
      StraySign text ∧ Represents (text.replace '+' '0') decimals amount := by
  rcases written.exists_of_cons with ⟨rest, rfl, restWritten⟩
  rcases value_of_glued restWritten few allDigits with ⟨around, value⟩
  rw [read] at value
  by_cases nothing : whole ++ fraction = []
  · -- All digits are zeros of places left, and a zero in place of the sign is one more of them.
    right
    rcases List.append_eq_nil_iff.mp nothing with ⟨rfl, rfl⟩
    have zero : AllDigits ['0'] := allDigits_replicate_zero 1
    have empty : AllDigits [] := around.fraction_digits
    cases restWritten with
    | bare => exact ⟨.alone, _, .unsigned ⟨.bare, zero, empty⟩ (by simp), value⟩
    | pointed => exact ⟨.inFrontOfPoint, _, .unsigned ⟨.pointed [], zero, empty⟩ (by simp), value⟩
  · left
    exact ⟨_, .signed around nothing, value⟩

/-- Where a sign starts what is kept of a fraction with nothing in front, it takes the first place
of the fraction, as a zero does. -/
theorem represents_of_behindPoint {kept : List Char}
    (trimmed : trimEnd '0' fraction = '+' :: kept)
    (few : (String.ofList ('+' :: kept)).utf8ByteSize ≤ decimals.toNat)
    (parts : glued [] ('+' :: kept) decimals.toNat = '+' :: digits)
    (allDigits : AllDigits digits) (read : ofDigits digits = amount.toNat) :
    StraySign ('.' :: fraction) ∧
      Represents (('.' :: fraction).replace '+' '0') decimals amount := by
  have same := (List.cons.inj parts).2
  subst same
  have keptDigits : AllDigits kept := allDigits.mono (by simp)
  rw [utf8ByteSize_ofList_cons (by decide), keptDigits.utf8ByteSize_eq] at few read
  have whole := trimEnd_append_replicate '0' fraction
  rw [trimmed] at whole
  generalize fraction.length - ('+' :: kept).length = count at whole
  subst whole
  have zeroDigits : AllDigits ('0' :: kept) := (allDigits_replicate_zero 1).append keptDigits
  have units : (ofDigits ([] ++ '0' :: kept ++
      List.replicate (decimals.toNat - ('0' :: kept).length) '0') : ℚ) =
        placesValue [] ('0' :: kept) * 10 ^ decimals.toNat := ofDigits_fill few
  refine ⟨.behindPoint _, placesValue [] (('0' :: kept) ++ List.replicate count '0'), ?_, ?_⟩
  · have digits := zeroDigits.append (allDigits_replicate_zero count)
    exact .unsigned ⟨.pointed _, by decide, digits⟩ (by simp)
  · rw [placesValue_append_zeros, ← units, ← read]
    rfl

/-! ## Reading -/

/-- What is read is a numeral of the amount, or becomes one with a zero in place of a stray sign. -/
theorem represents_of_ofText {text : String} (read : ofText text decimals = .ok amount) :
    Represents text.toList decimals amount ∨
      StraySign text.toList ∧ Represents (text.toList.replace '+' '0') decimals amount := by
  rcases ofText_eq_ok_iff.mp read with ⟨together, found, word⟩
  generalize text.toList = characters at found ⊢
  rcases exists_written found with ⟨whole, fraction, written, aligned⟩
  rcases exists_digits_of_readWord word with ⟨digits, sign, -, allDigits, number⟩
  rw [alignPlaces?_eq] at aligned
  simp only [Option.ite_none_right_eq_some, Option.some.injEq] at aligned
  rcases aligned with ⟨⟨something, few⟩, rfl⟩
  rcases sign with unsigned | signed
  · rw [← unsigned] at allDigits number
    rcases value_of_glued written few allDigits with ⟨around, value⟩
    refine .inl ⟨_, .unsigned around ?_, number ▸ value⟩
    intro nothing
    rcases List.append_eq_nil_iff.mp nothing with ⟨rfl, rfl⟩
    rcases something with whole | kept
    · contradiction
    · contradiction
  · -- The sign is the first character of the whole part, or of the fraction if that is empty.
    cases whole with
    | nil =>
        have keptNonempty : trimEnd '0' fraction ≠ [] := something.resolve_left (by simp)
        rcases List.exists_cons_of_ne_nil keptNonempty with ⟨first, kept, trimmed⟩
        rw [trimmed] at few signed
        have same : first = '+' := (List.cons.inj signed).1
        subst same
        cases written with
        | bare => contradiction
        | pointed => exact .inr (represents_of_behindPoint trimmed few signed allDigits number)
    | cons first whole =>
        rcases List.cons.inj signed with ⟨rfl, same⟩
        rw [← same] at allDigits number
        exact represents_of_signed written few allDigits number

/-- A text that is read is a numeral of the amount just if its sign is not a stray one; and a stray
sign is read as a zero would be. -/
theorem ofText_sound_iff {text : String} (read : ofText text decimals = .ok amount) :
    (Represents text.toList decimals amount ↔ ¬ StraySign text.toList) ∧
      (StraySign text.toList → Represents (text.toList.replace '+' '0') decimals amount) := by
  have exclusive (represented : Represents text.toList decimals amount) :
      ¬ StraySign text.toList := by
    intro stray
    rcases represented with ⟨number, numeral, -⟩
    exact stray.not_isNumeral number numeral
  rcases represents_of_ofText read with represented | ⟨stray, replaced⟩
  · have notStray := exclusive represented
    exact ⟨iff_of_true represented notStray, fun stray => absurd stray notStray⟩
  · have notRepresented := fun represented => exclusive represented stray
    exact ⟨iff_of_false notRepresented (not_not_intro stray), fun _ => replaced⟩

/-- A sign in front of a point is part of a numeral if a digit follows.  Without one it is read as
zero, though it is no numeral. -/
theorem reads_leading_signs :
    ofText "+.50" 2 = .ok 50 ∧ Represents "+.50".toList 2 50 ∧
      ofText "+." 1 = .ok 0 ∧ ¬ Represents "+.".toList 1 0 ∧ Represents "0.".toList 1 0 := by
  have half : ofText "+.50" 2 = .ok 50 := by decide +kernel
  have nothing : ofText "+." 1 = .ok 0 := by decide +kernel
  have leading : ¬ StraySign "+.50".toList := by
    intro stray
    generalize same : "+.50".toList = text at stray
    cases stray with
    | alone => simp at same
    | inFrontOfPoint => simp at same
    | behindPoint rest => simp at same
  refine ⟨half, (ofText_sound_iff half).1.mpr leading, nothing, ?_, ?_⟩
  · intro represented
    exact (ofText_sound_iff nothing).1.mp represented .inFrontOfPoint
  · exact (ofText_sound_iff nothing).2 .inFrontOfPoint

/-- What is read need not be a numeral: a sign behind the point is read, and with two places the
text is five units, as if it were five hundredths. -/
theorem reads_stray_sign : ofText ".+5" 2 = .ok 5 ∧ ¬ Represents ".+5".toList 2 5 := by
  constructor
  · decide +kernel
  · intro represented
    rcases represented with ⟨number, numeral, -⟩
    exact (StraySign.behindPoint ['5']).not_isNumeral number numeral

end Amount

end TokenAccounts
