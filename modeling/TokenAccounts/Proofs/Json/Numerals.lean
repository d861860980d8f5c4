import TokenAccounts.Json.Number
import TokenAccounts.Json.Reading
import TokenAccounts.Proofs.Amount.Rendering

/-!
# Numbers read back

A numeral is read back as it was spelled, if it is one that the grammar admits: digits where there
must be some, and no superfluous zero in front.  Main statement: so is every numeral that is
written, of whole numbers and of finite doubles.
-/

namespace TokenAccounts

/-! ## The shortest decimal -/

namespace Binary64

variable {number : Binary64} {interval : RoundingInterval} {ties : TieRule}

theorem low_roundingInterval_pos (nonzero : number.mantissa ≠ 0) :
    0 < number.roundingInterval.low := by
  apply Nat.mul_pos
  · split <;> omega
  · simp [Nat.one_shiftLeft]

/-- Zero does not round to a positive double. -/
theorem contains_zero (positive : 0 < interval.low) : interval.contains 0 = false := by
  simp [RoundingInterval.contains, Nat.ne_of_gt positive]

theorem low_refine_pos (positive : 0 < interval.low) (power : Nat) :
    0 < (interval.refine (Nat.pow 10 power)).low :=
  Nat.mul_pos positive (Nat.pow_pos (by decide))

/-- A multiple of a power of ten that rounds to a positive double is not zero. -/
theorem nearest?_ne_zero {power : Int} {digits : Nat} (positive : 0 < interval.low)
    (found : interval.nearest? ties power = some digits) : digits ≠ 0 := by
  rintro rfl
  have zero := contains_zero (low_refine_pos positive (-power).toNat)
  -- Each neighbour is chosen only where the interval contains it, and the upper one is not zero.
  rw [RoundingInterval.nearest?.eq_def] at found
  grind

/-- The search gives up only after all its attempts. -/
theorem search_cases (positive : 0 < interval.low) (attempts : Nat) (power : Int) :
    (interval.search ties attempts power).digits ≠ 0 ∨
      (interval.search ties attempts power).exponent = power - attempts := by
  induction attempts generalizing power with
  | zero => exact .inr (Int.sub_zero power).symm
  | succ attempts ih =>
      rw [RoundingInterval.search]
      cases found : interval.nearest? ties power with
      | some digits => exact .inl (nearest?_ne_zero positive found)
      | none =>
          have := ih (power - 1)
          grind

/-- The shortest decimal of a positive double has digits that count, or its search has ended behind
the point. -/
theorem shortest_leads (nonzero : number.mantissa ≠ 0) :
    (number.shortest ties).digits ≠ 0 ∨ (number.shortest ties).exponent < 0 := by
  refine (search_cases (low_roundingInterval_pos nonzero) _ _).imp_right fun ended => ?_
  rw [shortest, ended]
  omega

end Binary64

namespace Json

open Amount (AllDigits allDigits_wholeText)

variable {digits rest : List Char} {numeral : Numeral} {exponent : Option (Bool × List Char)}

/-! ## What stands behind a value -/

/-- Whether a text may stand behind a value: it is at its end, or goes on with a comma or a closing
bracket or brace. -/
def Behind (text : List Char) : Prop := ∀ first ∈ text.head?, first ∈ [',', ']', '}']

theorem behind_nil : Behind [] := by simp [Behind]

theorem behind_cons {first : Char} (closing : first ∈ [',', ']', '}']) (rest : List Char) :
    Behind (first :: rest) := by
  simpa [Behind] using closing

/-! ## The grammar of numbers -/

/-- Whether digits may stand in front of a point: there are some, and they start with a zero only if
it is the only one. -/
structure IsWhole (digits : List Char) : Prop where
  allDigits : AllDigits digits
  ne_nil : digits ≠ []
  leading : digits.head? = some '0' → digits = ['0']

/-- Whether a numeral is one that the grammar of numbers admits. -/
structure Numeral.WellFormed (numeral : Numeral) : Prop where
  isWhole : IsWhole numeral.whole
  fraction_allDigits : AllDigits numeral.fraction
  exponent_allDigits : ∀ negative digits, numeral.exponent = some (negative, digits) →
    AllDigits digits ∧ digits ≠ []

theorem readDigits?_append (allDigits : AllDigits digits) (nonempty : digits ≠ [])
    (stop : ∀ first ∈ rest.head?, first.isDigit = false) :
    readDigits? (digits ++ rest) = some (digits, rest) := by
  rw [readDigits?, List.takeWhile_append_of_pos allDigits, List.dropWhile_append_of_pos allDigits]
  cases rest with
  | nil => simp [nonempty]
  | cons first rest => simp [nonempty, stop first rfl]

/-- The fraction of a number with its point, if there is one. -/
def fractionText (fraction : List Char) : List Char :=
  if fraction.isEmpty then [] else '.' :: fraction

/-- The exponent of a number with its letter and sign, if there is one. -/
def exponentText : Option (Bool × List Char) → List Char
  | none => []
  | some (negative, digits) => 'e' :: (if negative then '-' else '+') :: digits

theorem renderNumeral_eq (negative : Bool) (whole fraction : List Char)
    (exponent : Option (Bool × List Char)) :
    renderNumeral ⟨negative, whole, fraction, exponent⟩ =
      (if negative then ['-'] else []) ++
        (whole ++ (fractionText fraction ++ exponentText exponent)) := by
  cases exponent <;> simp [renderNumeral, fractionText, exponentText]

theorem readFraction?_append {fraction : List Char} (allDigits : AllDigits fraction)
    (stop : ∀ first ∈ rest.head?, first.isDigit = false ∧ first ≠ '.') :
    readFraction? (fractionText fraction ++ rest) = some (fraction, rest) := by
  cases fraction with
  | nil =>
      rw [fractionText, List.isEmpty_nil, if_pos rfl, List.nil_append, readFraction?]
      rintro text rfl
      exact (stop '.' rfl).2 rfl
  | cons digit digits =>
      exact readDigits?_append allDigits (List.cons_ne_nil _ _) fun first found =>
        (stop first found).1

theorem readExponent?_append (negative : Bool) (allDigits : AllDigits digits)
    (nonempty : digits ≠ []) (stop : ∀ first ∈ rest.head?, first.isDigit = false) :
    readExponent? ((if negative then '-' else '+') :: (digits ++ rest)) =
      some (some (negative, digits), rest) := by
  have read := readDigits?_append allDigits nonempty stop
  cases negative <;> simp [readExponent?, read]

/-- What stands behind a value is not taken for more of a number. -/
theorem Behind.stop (behind : Behind rest) :
    ∀ first ∈ rest.head?, first.isDigit = false ∧ first ≠ '.' ∧ first ≠ 'e' ∧ first ≠ 'E' := by
  intro first found
  have closing := behind first found
  simp only [List.mem_cons, List.not_mem_nil, or_false] at closing
  rcases closing with rfl | rfl | rfl <;> decide

/-- An exponent is not taken for more of the digits in front of it. -/
theorem stop_exponentText (behind : Behind rest) (exponent : Option (Bool × List Char)) :
    ∀ first ∈ (exponentText exponent ++ rest).head?, first.isDigit = false ∧ first ≠ '.' := by
  cases exponent with
  | none => exact fun first found => ⟨(behind.stop first found).1, (behind.stop first found).2.1⟩
  | some exponent => simp [exponentText]

/-- A fraction is not taken for more of the digits in front of it. -/
theorem stop_fractionText (fraction : List Char)
    (stop : ∀ first ∈ rest.head?, first.isDigit = false ∧ first ≠ '.') :
    ∀ first ∈ (fractionText fraction ++ rest).head?, first.isDigit = false := by
  cases fraction with
  | nil => exact fun first found => (stop first found).1
  | cons digit digits => simp [fractionText]

/-- Digits are not taken for a sign. -/
theorem splitMinus_append (negative : Bool) (allDigits : AllDigits digits) (nonempty : digits ≠ [])
    (rest : List Char) :
    splitMinus ((if negative then ['-'] else []) ++ (digits ++ rest)) =
      (negative, digits ++ rest) := by
  cases negative with
  | true => rfl
  | false =>
      cases digits with
      | nil => contradiction
      | cons digit digits =>
          have isDigit := allDigits digit List.mem_cons_self
          rw [if_neg Bool.false_ne_true, List.nil_append, splitMinus]
          intro text sign
          cases sign
          contradiction

theorem readScale?_append (allDigits : ∀ negative digits, exponent = some (negative, digits) →
    AllDigits digits ∧ digits ≠ []) (behind : Behind rest) :
    readScale? (exponentText exponent ++ rest) = some (exponent, rest) := by
  cases exponent with
  | some scale =>
      obtain ⟨scaleDigits, nonempty⟩ := allDigits scale.1 scale.2 rfl
      exact readExponent?_append scale.1 scaleDigits nonempty fun first found =>
        (behind.stop first found).1
  | none =>
      rw [exponentText, List.nil_append, readScale?]
      · rintro text rfl
        exact (behind.stop 'e' rfl).2.2.1 rfl
      · rintro text rfl
        exact (behind.stop 'E' rfl).2.2.2 rfl

/-- A numeral that the grammar admits is read back as it was spelled. -/
theorem readNumeral?_renderNumeral (wellFormed : numeral.WellFormed) (behind : Behind rest) :
    readNumeral? (renderNumeral numeral ++ rest) = some (numeral, rest) := by
  obtain ⟨negative, whole, fraction, exponent⟩ := numeral
  have isWhole : IsWhole whole := wellFormed.isWhole
  have stopExponent := stop_exponentText behind exponent
  have readWhole := readDigits?_append isWhole.allDigits isWhole.ne_nil
    (stop_fractionText fraction stopExponent)
  have readFraction := readFraction?_append wellFormed.fraction_allDigits stopExponent
  have readScale := readScale?_append wellFormed.exponent_allDigits behind
  have admitted : ¬ (whole.head? = some '0' ∧ whole ≠ ['0']) := fun both =>
    both.2 (isWhole.leading both.1)
  rw [renderNumeral_eq, List.append_assoc, List.append_assoc, List.append_assoc, readNumeral?,
    splitMinus_append negative isWhole.allDigits isWhole.ne_nil]
  simp only [readWhole, readFraction, readScale, admitted, bind, Option.bind_some, if_false]

/-! ## Whole numbers -/

theorem wholeText_ne_nil (number : Nat) : wholeText number ≠ [] := Nat.toDigits_ne_nil

theorem isWhole_wholeText (number : Nat) : IsWhole (wholeText number) where
  allDigits := allDigits_wholeText number
  ne_nil := wholeText_ne_nil number
  leading zero := by
    have number_eq : number = 0 := by
      by_contra nonzero
      exact Amount.head?_wholeText_ne_zero nonzero zero
    rw [number_eq]
    rfl

/-- The numeral of a whole number, which it denotes. -/
theorem toInt?_ofInt (number : Int) : (ofInt number).toInt? = some number := by
  have magnitude : Nat.ofDigitChars 10 (wholeText number.natAbs) 0 = number.natAbs :=
    Amount.ofDigits_wholeText _
  rw [ofInt, toInt?, magnitude]
  split <;> grind

theorem toIntWithin?_ofInt {low high number : Int} (above : low ≤ number) (below : number ≤ high) :
    (ofInt number).toIntWithin? low high = some number := by
  simp [toIntWithin?, toInt?_ofInt, above, below]

theorem wellFormed_wholeText (negative : Bool) (number : Nat) :
    Numeral.WellFormed ⟨negative, wholeText number, [], none⟩ where
  isWhole := isWhole_wholeText number
  fraction_allDigits := by simp [AllDigits]
  exponent_allDigits := by simp

/-! ## Doubles -/

/-- Some of the digits in front may stand there alone. -/
theorem IsWhole.take {count : Nat} (isWhole : IsWhole digits) (positive : 0 < count) :
    IsWhole (digits.take count) where
  allDigits := isWhole.allDigits.mono (List.take_subset count digits)
  ne_nil := by simp [isWhole.ne_nil, Nat.ne_of_gt positive]
  leading zero := by
    rw [List.head?_take, if_neg (Nat.ne_of_gt positive)] at zero
    rw [isWhole.leading zero, List.take_of_length_le positive]

/-- More digits may stand behind those that do not start with a zero. -/
theorem IsWhole.append (isWhole : IsWhole digits) (nonzero : digits.head? ≠ some '0')
    (allDigits : AllDigits rest) : IsWhole (digits ++ rest) where
  allDigits := isWhole.allDigits.append allDigits
  ne_nil := List.append_ne_nil_of_left_ne_nil isWhole.ne_nil rest
  leading zero := by
    rw [List.head?_append_of_ne_nil _ isWhole.ne_nil] at zero
    contradiction

variable {decimal : Decimal}

/-- The digits of a decimal stand around its point as they should, unless they are zeros in front of
it. -/
theorem isWhole_places (leads : decimal.digits ≠ 0 ∨ decimal.exponent < 0) :
    IsWhole decimal.places.1 ∧ AllDigits decimal.places.2 := by
  have isWhole := isWhole_wholeText decimal.digits
  rw [Decimal.places]
  by_cases whole : 0 ≤ decimal.exponent
  · have nonzero := leads.resolve_right (Int.not_lt.mpr whole)
    simp only [whole, if_true]
    exact ⟨isWhole.append (Amount.head?_wholeText_ne_zero nonzero)
      (Amount.allDigits_replicate_zero _), by simp [AllDigits]⟩
  · simp only [whole, if_false]
    split
    case isTrue shorter =>
      exact ⟨isWhole.take (Nat.sub_pos_of_lt shorter),
        isWhole.allDigits.mono (List.drop_subset _ _)⟩
    case isFalse =>
      exact ⟨isWhole_wholeText 0, (Amount.allDigits_replicate_zero _).append isWhole.allDigits⟩

theorem wellFormed_numeralOf (negative : Bool) (leads : decimal.digits ≠ 0 ∨ decimal.exponent < 0) :
    (numeralOf negative decimal).WellFormed := by
  have isWhole := isWhole_wholeText decimal.digits
  obtain ⟨wholeDigits, fractionDigits⟩ := isWhole_places leads
  rw [numeralOf]
  split
  case isTrue =>
    refine ⟨wholeDigits, ?_, by simp⟩
    show AllDigits (if decimal.places.2.isEmpty then ['0'] else decimal.places.2)
    split
    case isTrue => decide
    case isFalse => exact fractionDigits
  case isFalse =>
    refine ⟨isWhole.take Nat.one_pos, isWhole.allDigits.mono (List.drop_subset _ _), ?_⟩
    rintro negative digits ⟨⟩
    exact ⟨allDigits_wholeText _, wholeText_ne_nil _⟩

/-- A double is written as null or as a number that the grammar admits. -/
theorem ofBinary64_cases (number : Binary64) :
    ofBinary64 number = .null ∨
      ∃ numeral : Numeral, numeral.WellFormed ∧ ofBinary64 number = .number numeral := by
  rw [ofBinary64]
  split
  case isTrue => exact .inl rfl
  case isFalse =>
    split
    case isTrue => exact .inr ⟨_, ⟨isWhole_wholeText 0, allDigits_wholeText 0, by simp⟩, rfl⟩
    case isFalse nonzero =>
      exact .inr ⟨_, wellFormed_numeralOf _ (Binary64.shortest_leads nonzero), rfl⟩

end Json

end TokenAccounts
