import TokenAccounts.Amount.Mint
import TokenAccounts.Proofs.Account.Lookup
import TokenAccounts.Proofs.Amount.Plain

/-!
# Which extension the amounts of a mint follow

The first interest configuration decides how amounts are shown and read, else the first factor does,
else amounts are plain decimals.  Only interest can keep an amount from being shown, and it does so
just where a span of time is negative or too long.
-/

namespace TokenAccounts

/-! ## Interest over impossible spans of time -/

namespace InterestBearingConfig

variable {config : InterestBearingConfig} {time : Int64} {error : Error}

/-- Whether a span of seconds is negative, or too long for a signed word. -/
def OutOfRange (span : Int) : Prop := span < 0 ∨ Int64.maxValue.toInt < span

instance (span : Int) : Decidable (OutOfRange span) := inferInstanceAs (Decidable (_ ∨ _))

/-- Whether the span from the start to the last update, or the one from there to a time, is out of
range. -/
def Untimely (config : InterestBearingConfig) (time : Int64) : Prop :=
  OutOfRange (config.lastUpdateTimestamp.toInt - config.initializationTimestamp.toInt) ∨
    OutOfRange (time.toInt - config.lastUpdateTimestamp.toInt)

/-- Whether a signed word is negative can be told from the difference that it holds. -/
theorem ofInt_nonneg_iff {difference : Int} (low : Int64.minValue.toInt ≤ difference)
    (high : difference ≤ Int64.maxValue.toInt) : 0 ≤ Int64.ofInt difference ↔ 0 ≤ difference := by
  have least : Int64.minValue.toInt = -0x8000000000000000 := rfl
  have greatest : Int64.maxValue.toInt = 0x7fffffffffffffff := rfl
  have held : (Int64.ofInt difference).toInt = difference :=
    Int64.toInt_ofInt_of_le (by omega) (by omega)
  rw [Int64.le_iff_toInt_le, held]
  rfl

/-- A span is the exact difference of its ends, where that is neither negative nor too long. -/
theorem timespan_eq (start finish : Int64) :
    timespan start finish =
      if OutOfRange (finish.toInt - start.toInt) then .error .invalidTimespan
      else .ok (Int64.ofInt (finish.toInt - start.toInt)) := by
  have low : Int64.minValue.toInt ≤ 0 := by decide
  rw [timespan, checkedSub?]
  by_cases fits : Int64.minValue.toInt ≤ finish.toInt - start.toInt ∧
      finish.toInt - start.toInt ≤ Int64.maxValue.toInt
  · have sign := ofInt_nonneg_iff fits.1 fits.2
    rw [if_pos fits, Option.filter_some]
    by_cases outside : OutOfRange (finish.toInt - start.toInt)
    · have negative := outside.resolve_right (Int.not_lt.mpr fits.2)
      rw [if_neg (by rw [decide_eq_true_iff, sign]; omega), if_pos outside]
    · have nonnegative := Int.not_lt.mp (not_or.mp outside).1
      rw [if_pos (decide_eq_true (sign.mpr nonnegative)), if_neg outside]
  · rw [if_neg fits, if_pos (by unfold OutOfRange; omega)]
    rfl

theorem timespan_eq_error_iff {start finish : Int64} :
    timespan start finish = .error error ↔
      error = .invalidTimespan ∧ OutOfRange (finish.toInt - start.toInt) := by
  rw [timespan_eq]
  split
  case isTrue outside => rw [Except.error.injEq, eq_comm, and_iff_left outside]
  case isFalse within => simp [within]

theorem totalScale_eq_error_iff :
    config.totalScale time = .error error ↔
      error = .invalidTimespan ∧ config.Untimely time := by
  rw [totalScale, Outcome.bind_eq_error_iff, timespan_eq_error_iff, Untimely]
  constructor
  · intro failure
    rcases failure with ⟨same, before⟩ | ⟨_, -, failure⟩
    · exact ⟨same, .inl before⟩
    · rcases Outcome.bind_eq_error_iff.mp failure with since | ⟨_, -, impossible⟩
      · rcases timespan_eq_error_iff.mp since with ⟨same, since⟩
        exact ⟨same, .inr since⟩
      · cases impossible
  · intro conditions
    rcases conditions with ⟨same, untimely⟩
    -- Both spans may be impossible, and then the first is the one that is reported.
    cases first : timespan config.initializationTimestamp config.lastUpdateTimestamp with
    | error cause => exact .inl ⟨same, (timespan_eq_error_iff.mp first).2⟩
    | ok span =>
        rcases untimely with before | since
        · exact .inl ⟨same, before⟩
        · rw [timespan_eq_error_iff.mpr ⟨same, since⟩]
          exact .inr ⟨span, rfl, rfl⟩

/-- An amount with interest can be shown unless a span is impossible. -/
theorem toText_eq_error_iff {amount : UInt64} {decimals : UInt8} :
    config.toText amount decimals time = .error error ↔
      error = .invalidTimespan ∧ config.Untimely time := by
  rw [toText, Outcome.bind_eq_error_iff, totalScale_eq_error_iff]
  constructor
  · intro failure
    rcases failure with failure | ⟨_, -, impossible⟩
    · exact failure
    · cases impossible
  · exact .inl

/-- No text is an amount with interest if a span is impossible. -/
theorem ofText_ne_ok (untimely : config.Untimely time) (text : String) (decimals : UInt8)
    (amount : UInt64) : config.ofText text decimals time ≠ .ok amount := by
  intro read
  rcases Outcome.bind_eq_ok_iff.mp read with ⟨_, -, rest⟩
  rw [totalScale_eq_error_iff.mpr ⟨rfl, untimely⟩] at rest
  cases rest

end InterestBearingConfig

/-- How amounts of a mint are shown. -/
inductive AmountDisplay where
  | interest (config : InterestBearingConfig)
  | scaled (config : ScaledUiAmountConfig)
  | plain
  deriving DecidableEq, Repr

namespace AmountDisplay

/-- A raw amount as text. -/
def toText : AmountDisplay → UInt64 → UInt8 → Int64 → Except Error String
  | .interest config => config.toText
  | .scaled config => fun amount decimals time => .ok (config.toText amount decimals time)
  | .plain => fun amount decimals _ => .ok (Amount.toTrimmedText amount decimals)

/-- The raw amount that a text denotes. -/
def ofText : AmountDisplay → String → UInt8 → Int64 → Except Error UInt64
  | .interest config => config.ofText
  | .scaled config => config.ofText
  | .plain => fun text decimals _ => Amount.ofText text decimals

/-- Nothing but interest keeps an amount from being shown. -/
theorem toText_eq_error_iff {shown : AmountDisplay} {amount : UInt64} {decimals : UInt8}
    {time : Int64} {error : Error} :
    shown.toText amount decimals time = .error error ↔
      error = .invalidTimespan ∧ ∃ config, shown = .interest config ∧ config.Untimely time := by
  cases shown with
  | interest config => simp [toText, InterestBearingConfig.toText_eq_error_iff]
  | scaled config => simp [toText]
  | plain => simp [toText]

end AmountDisplay

namespace Account

open Extension

variable {mint other : MintAccount} {shown : AmountDisplay}

/-! ## Interest before a factor before plain decimals -/

/-- How amounts of the mint are shown. -/
def display (mint : MintAccount) : AmountDisplay :=
  match mint.get .interestBearingConfig with
  | .ok config => .interest config
  | .error _ =>
      match mint.get .scaledUiAmount with
      | .ok config => .scaled config
      | .error _ => .plain

/-- Amounts are shown as the display of the mint has it. -/
theorem amountToText_eq (mint : MintAccount) (amount : UInt64) (time : Int64) :
    mint.amountToText amount time =
      mint.display.toText amount (Mint.decimals mint.base) time := by
  rw [amountToText, display]
  cases mint.get .interestBearingConfig with
  | ok config => rfl
  | error cause => cases mint.get .scaledUiAmount <;> rfl

/-- Amounts are read as the display of the mint has it. -/
theorem amountOfText_eq (mint : MintAccount) (text : String) (time : Int64) :
    mint.amountOfText text time = mint.display.ofText text (Mint.decimals mint.base) time := by
  rw [amountOfText, display]
  cases mint.get .interestBearingConfig with
  | ok config => rfl
  | error cause => cases mint.get .scaledUiAmount <;> rfl

/-- The displays that the extensions of a mint call for. -/
inductive CallsFor (mint : MintAccount) : AmountDisplay → Prop
  | interest {config : InterestBearingConfig}
      (first : IsFirst .interestBearingConfig config mint.list) : CallsFor mint (.interest config)
  | scaled {config : ScaledUiAmountConfig} (noInterest : Absent .interestBearingConfig mint.list)
      (first : IsFirst .scaledUiAmount config mint.list) : CallsFor mint (.scaled config)
  | plain (noInterest : Absent .interestBearingConfig mint.list)
      (noFactor : Absent .scaledUiAmount mint.list) : CallsFor mint .plain

theorem callsFor_display (mint : MintAccount) : mint.CallsFor mint.display := by
  unfold display
  split
  · next config got => exact .interest ((get_eq_ok_iff_isFirst rfl).mp got)
  · next error missing =>
      have noInterest := (exists_get_eq_error_iff rfl).mp ⟨error, missing⟩
      split
      · next config got => exact .scaled noInterest ((get_eq_ok_iff_isFirst rfl).mp got)
      · next error missing =>
          exact .plain noInterest ((exists_get_eq_error_iff rfl).mp ⟨error, missing⟩)

/-- A mint is shown as its extensions call for. -/
theorem display_eq_iff : mint.display = shown ↔ mint.CallsFor shown := by
  constructor
  · intro same
    exact same ▸ mint.callsFor_display
  · intro calls
    cases calls with
    | interest first => simp only [display, (get_eq_ok_iff_isFirst rfl).mpr first]
    | scaled noInterest first =>
        rcases (exists_get_eq_error_iff rfl).mpr noInterest with ⟨error, missing⟩
        simp only [display, missing, (get_eq_ok_iff_isFirst rfl).mpr first]
    | plain noInterest noFactor =>
        rcases (exists_get_eq_error_iff rfl).mpr noInterest with ⟨error, missing⟩
        rcases (exists_get_eq_error_iff rfl).mpr noFactor with ⟨factorError, missingFactor⟩
        simp only [display, missing, missingFactor]

/-- Which display is called for depends on the first interest, and without it on the first
factor. -/
theorem CallsFor.transfer
    (sameInterest : ∀ config, IsFirst .interestBearingConfig config other.list ↔
      IsFirst .interestBearingConfig config mint.list)
    (sameFactor : Absent .interestBearingConfig mint.list →
      ∀ config, IsFirst .scaledUiAmount config other.list ↔
        IsFirst .scaledUiAmount config mint.list)
    (calls : mint.CallsFor shown) : other.CallsFor shown := by
  have noInterest : Absent .interestBearingConfig other.list ↔
      Absent .interestBearingConfig mint.list := by
    simp only [absent_iff_forall_not_isFirst, sameInterest]
  cases calls with
  | interest first => exact .interest ((sameInterest _).mpr first)
  | scaled absent first => exact .scaled (noInterest.mpr absent) ((sameFactor absent _).mpr first)
  | plain absent noFactor =>
      refine .plain (noInterest.mpr absent) ?_
      rw [absent_iff_forall_not_isFirst] at noFactor ⊢
      intro config first
      exact noFactor config ((sameFactor absent config).mp first)

theorem callsFor_interest_iff {config : InterestBearingConfig} :
    mint.CallsFor (.interest config) ↔ IsFirst .interestBearingConfig config mint.list := by
  constructor
  · intro calls
    cases calls with
    | interest first => exact first
  · exact .interest

/-! ## Both directions -/

/-- Whether amounts of a mint are shown and read by two functions of its decimal places. -/
structure Converts (mint : MintAccount) (toText : UInt64 → UInt8 → Int64 → Except Error String)
    (ofText : String → UInt8 → Int64 → Except Error UInt64) : Prop where
  toText_eq : ∀ amount time,
    mint.amountToText amount time = toText amount (Mint.decimals mint.base) time
  ofText_eq : ∀ text time,
    mint.amountOfText text time = ofText text (Mint.decimals mint.base) time

/-- What a mint calls for is what its amounts are shown by and read by. -/
theorem CallsFor.converts (calls : mint.CallsFor shown) :
    mint.Converts shown.toText shown.ofText := by
  have display := display_eq_iff.mpr calls
  constructor
  · intro amount time
    rw [amountToText_eq, display]
  · intro text time
    rw [amountOfText_eq, display]

/-- An amount cannot be shown just if the first interest is over an impossible span. -/
theorem amountToText_eq_error_iff {amount : UInt64} {time : Int64} {error : Error} :
    mint.amountToText amount time = .error error ↔
      error = .invalidTimespan ∧ ∃ config : InterestBearingConfig,
        IsFirst .interestBearingConfig config mint.list ∧ config.Untimely time := by
  rw [mint.callsFor_display.converts.toText_eq, AmountDisplay.toText_eq_error_iff]
  simp only [display_eq_iff, callsFor_interest_iff]

/-- Amounts of a mint are shown and read in one way.  If the mint has interest anywhere among its
extensions, it is that of the first such extension; else it is that of the first factor, if there is
one; else amounts are plain decimals, and what is shown is read as the amount at any time.  No other
extension has a part in it.  An amount cannot be shown just if the first interest is over a span of
time that is negative or too long, and then no text is read as an amount either. -/
theorem amounts_follow_first_config (mint : MintAccount) :
    ((∃ held, .typed .interestBearingConfig held ∈ mint.list) →
      ∃ config : InterestBearingConfig, IsFirst .interestBearingConfig config mint.list ∧
        mint.Converts config.toText config.ofText) ∧
    (Absent .interestBearingConfig mint.list →
      (∃ held, .typed .scaledUiAmount held ∈ mint.list) →
      ∃ config : ScaledUiAmountConfig, IsFirst .scaledUiAmount config mint.list ∧
        mint.Converts (fun amount decimals time => .ok (config.toText amount decimals time))
          config.ofText) ∧
    (Absent .interestBearingConfig mint.list → Absent .scaledUiAmount mint.list →
      mint.Converts (fun amount decimals _ => .ok (Amount.toTrimmedText amount decimals))
          (fun text decimals _ => Amount.ofText text decimals) ∧
        ∀ amount time later, ∃ text, mint.amountToText amount time = .ok text ∧
          mint.amountOfText text later = .ok amount) ∧
    (∀ other : MintAccount, Mint.decimals other.base = Mint.decimals mint.base →
      (∀ config, IsFirst .interestBearingConfig config other.list ↔
        IsFirst .interestBearingConfig config mint.list) →
      (Absent .interestBearingConfig mint.list →
        ∀ config, IsFirst .scaledUiAmount config other.list ↔
          IsFirst .scaledUiAmount config mint.list) →
      (∀ amount time, other.amountToText amount time = mint.amountToText amount time) ∧
        ∀ text time, other.amountOfText text time = mint.amountOfText text time) ∧
    (∀ amount time error, mint.amountToText amount time = .error error ↔
      error = .invalidTimespan ∧ ∃ config : InterestBearingConfig,
        IsFirst .interestBearingConfig config mint.list ∧ config.Untimely time) ∧
    (∀ (config : InterestBearingConfig) time,
      IsFirst .interestBearingConfig config mint.list → config.Untimely time →
        ∀ text amount, mint.amountOfText text time ≠ .ok amount) := by
  refine ⟨?interest, ?factor, ?plain, ?others, ?failure, ?reading⟩
  case interest =>
    intro held
    rcases exists_isFirst held with ⟨config, first⟩
    exact ⟨config, first, (CallsFor.interest first).converts⟩
  case factor =>
    intro noInterest held
    rcases exists_isFirst held with ⟨config, first⟩
    exact ⟨config, first, (CallsFor.scaled noInterest first).converts⟩
  case plain =>
    intro noInterest noFactor
    have converts := (CallsFor.plain noInterest noFactor).converts
    refine ⟨converts, ?_⟩
    intro amount time later
    refine ⟨_, converts.toText_eq amount time, ?_⟩
    rw [converts.ofText_eq]
    exact Amount.ofText_toTrimmedText amount _
  case others =>
    intro other sameDecimals sameInterest sameFactor
    have sameDisplay : other.display = mint.display :=
      display_eq_iff.mpr (mint.callsFor_display.transfer sameInterest sameFactor)
    constructor
    · intro amount time
      rw [amountToText_eq, amountToText_eq, sameDisplay, sameDecimals]
    · intro text time
      rw [amountOfText_eq, amountOfText_eq, sameDisplay, sameDecimals]
  case failure =>
    intro amount time error
    exact amountToText_eq_error_iff
  case reading =>
    intro config time first untimely text amount
    rw [(CallsFor.interest first).converts.ofText_eq]
    exact config.ofText_ne_ok untimely text _ amount

/-- A mint of two places with some extensions. -/
def mintWith (extensions : List Extension) : MintAccount :=
  ⟨⟨none, 0, 2, true, none⟩, some extensions⟩

/-- Interest whose last update is more than a signed word after its start. -/
def drawnOut : InterestBearingConfig := ⟨none, Int64.minValue, 5, Int64.maxValue, 5⟩

/-- A factor of 2 behind foreign data. -/
def doubling : List Extension :=
  [.unparsed 4711 [1],
    .typed .scaledUiAmount ⟨none, ⟨0x4000000000000000⟩, 0, ⟨0x4000000000000000⟩⟩]

/-- Interest behind a factor, and more interest behind that. -/
def contested : List Extension :=
  doubling ++ [.typed .interestBearingConfig drawnOut,
    .typed .interestBearingConfig ⟨none, 0, 5, 0, 5⟩]

/-- Interest is followed behind a factor and in front of other interest as if it stood alone, a
factor is followed where there is no interest, and an amount comes back where there is neither. -/
theorem amounts_of_contested :
    (∃ config : InterestBearingConfig,
      IsFirst .interestBearingConfig config (mintWith contested).list ∧
        (mintWith contested).Converts config.toText config.ofText) ∧
    ((mintWith [.typed .interestBearingConfig drawnOut]).amountToText 150 7 =
        (mintWith contested).amountToText 150 7 ∧
      (mintWith contested).amountToText 150 7 = .error .invalidTimespan ∧
      (mintWith contested).amountOfText "1.5" 7 ≠ .ok 150) ∧
    (∃ config : ScaledUiAmountConfig, IsFirst .scaledUiAmount config (mintWith doubling).list ∧
      (mintWith doubling).Converts
        (fun amount decimals time => .ok (config.toText amount decimals time)) config.ofText) ∧
    ∃ text, (mintWith [.unparsed 4711 [1]]).amountToText 150 7 = .ok text ∧
      (mintWith [.unparsed 4711 [1]]).amountOfText text 8 = .ok 150 := by
  have first : IsFirst .interestBearingConfig drawnOut (mintWith contested).list :=
    ⟨doubling, _, rfl, by simp [doubling]⟩
  have alone : IsFirst .interestBearingConfig drawnOut
      (mintWith [.typed .interestBearingConfig drawnOut]).list := ⟨[], [], rfl, by simp⟩
  have untimely : drawnOut.Untimely 7 := by
    left
    right
    decide
  rcases amounts_follow_first_config (mintWith contested) with
    ⟨interest, -, -, others, failure, reading⟩
  rcases amounts_follow_first_config (mintWith doubling) with ⟨-, factor, -⟩
  rcases amounts_follow_first_config (mintWith [.unparsed 4711 [1]]) with ⟨-, -, plain, -⟩
  refine ⟨?behindFactor, ⟨?alone, ?shown, ?read⟩, ?factor, ?plain⟩
  case behindFactor => exact interest ⟨drawnOut, by simp [mintWith, list, contested]⟩
  case alone =>
    apply (others (mintWith [.typed .interestBearingConfig drawnOut]) rfl _ _).1
    · intro config
      exact ⟨fun held => held.unique alone ▸ first, fun held => held.unique first ▸ alone⟩
    · intro noInterest
      exact absurd (noInterest drawnOut) (by simp [mintWith, list, contested])
  case shown => exact (failure 150 7 _).mpr ⟨rfl, drawnOut, first, untimely⟩
  case read => exact reading drawnOut 7 first untimely "1.5" 150
  case factor =>
    apply factor
    · intro value
      simp [mintWith, list, doubling]
    · exact ⟨_, List.mem_cons_of_mem _ List.mem_cons_self⟩
  case plain =>
    apply (plain _ _).2
    · intro value
      simp [mintWith, list]
    · intro value
      simp [mintWith, list]

end Account

end TokenAccounts
