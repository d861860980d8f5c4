import TokenAccounts.Proofs.Field.Record

/-!
# What can be wrong with fields of fixed width

Whether a field of fixed width can be read is seen from its own bytes.  A byte that is no truth
value or account state, or a tag that is neither 0 nor 1, is a fault, and nothing else is.  Main
statement: a record of such fields that is long enough is read unless one of its fields has a fault,
and is refused for the first fault.
-/

namespace TokenAccounts

namespace Reader

variable {α β : Type}

/-- Whether a read of so many bytes consumes just those, unless they have a fault, which is then
why it fails. -/
structure Judges (reader : Reader α) (width : Nat) (fault? : List UInt8 → Option Error) :
    Prop where
  accepts : ∀ {bytes}, bytes.length = width → fault? bytes = none → ∀ rest,
    ∃ value, reader.run (bytes ++ rest) = (.ok value, rest)
  refuses : ∀ {bytes error}, bytes.length = width → fault? bytes = some error → ∀ rest,
    ∃ left, reader.run (bytes ++ rest) = (.error error, left)

variable {reader : Reader α} {width : Nat} {fault? : List UInt8 → Option Error}

theorem judges_pure (value : α) : (pure value : Reader α).Judges 0 fun _ => none where
  accepts filled _ rest := by
    obtain rfl := List.eq_nil_of_length_eq_zero filled
    exact ⟨value, rfl⟩
  refuses _ faulty := by cases faulty

/-- A second read sees the bytes behind those of the first, if the first finds no fault. -/
theorem Judges.bind {next : α → Reader β} {others : Nat} {otherFault? : List UInt8 → Option Error}
    (first : reader.Judges width fault?)
    (second : ∀ value, (next value).Judges others otherFault?) :
    (reader >>= next).Judges (width + others) fun bytes =>
      (fault? (bytes.take width)).or (otherFault? (bytes.drop width)) := by
  have divide (bytes rest : List UInt8) :
      bytes ++ rest = bytes.take width ++ (bytes.drop width ++ rest) := by
    rw [← List.append_assoc, List.take_append_drop]
  have front {bytes : List UInt8} (filled : bytes.length = width + others) :
      (bytes.take width).length = width := List.length_take_of_le (by omega)
  have back {bytes : List UInt8} (filled : bytes.length = width + others) :
      (bytes.drop width).length = others := by
    rw [List.length_drop]
    omega
  constructor
  case accepts =>
    intro bytes filled clean rest
    rcases Option.or_eq_none_iff.mp clean with ⟨firstClean, secondClean⟩
    rcases first.accepts (front filled) firstClean (bytes.drop width ++ rest) with ⟨value, read⟩
    rw [divide, run_bind_of_ok read]
    exact (second value).accepts (back filled) secondClean rest
  case refuses =>
    intro bytes error filled faulty rest
    rw [divide]
    rcases Option.or_eq_some_iff.mp faulty with firstFaulty | ⟨firstClean, secondFaulty⟩
    · rcases first.refuses (front filled) firstFaulty (bytes.drop width ++ rest) with ⟨left, read⟩
      exact ⟨left, by rw [run_bind, read]⟩
    · rcases first.accepts (front filled) firstClean (bytes.drop width ++ rest) with ⟨value, read⟩
      rw [run_bind_of_ok read]
      exact (second value).refuses (back filled) secondFaulty rest

/-- What is made of a value that was read has no faults of its own. -/
theorem Judges.bind_pure (judges : reader.Judges width fault?) (result : α → β) :
    (reader >>= fun value => pure (result value)).Judges width fault? where
  accepts filled clean rest := by
    rcases judges.accepts filled clean rest with ⟨value, read⟩
    exact ⟨result value, run_bind_of_ok read⟩
  refuses filled faulty rest := by
    rcases judges.refuses filled faulty rest with ⟨left, read⟩
    exact ⟨left, by rw [run_bind, read]⟩

theorem run_orRestore_of_error {unread left : List UInt8} {error : Error}
    (read : reader.run unread = (.error error, left)) :
    (orRestore reader).run unread = (.error error, unread) := by
  simp [orRestore, read]

theorem Judges.orRestore (judges : reader.Judges width fault?) :
    (orRestore reader).Judges width fault? where
  accepts filled clean rest := by
    rcases judges.accepts filled clean rest with ⟨value, read⟩
    exact ⟨value, run_orRestore_of_ok read⟩
  refuses filled faulty rest := by
    rcases judges.refuses filled faulty rest with ⟨left, read⟩
    exact ⟨_, run_orRestore_of_error read⟩

/-- What never has a fault is read as often as asked for. -/
theorem Judges.times (judges : reader.Judges width fun _ => none) (count : Nat) :
    (times reader count).Judges (width * count) fun _ => none := by
  induction count with
  | zero => exact judges_pure []
  | succ count ih =>
      rw [Nat.mul_succ, Nat.add_comm (width * count)]
      exact judges.bind fun first => ih.bind_pure (first :: ·)

end Reader

/-- A cause of failure, if there is something wrong. -/
def Error.when (error : Error) (wrong : Prop) [Decidable wrong] : Option Error :=
  if wrong then some error else none

theorem Error.when_eq_none_iff {error : Error} {wrong : Prop} [Decidable wrong] :
    error.when wrong = none ↔ ¬ wrong := by
  simp [Error.when]

theorem Error.when_eq_some_iff {error found : Error} {wrong : Prop} [Decidable wrong] :
    error.when wrong = some found ↔ wrong ∧ error = found := by
  simp [Error.when]

theorem Error.when_congr {error : Error} {left right : Prop} [Decidable left] [Decidable right]
    (same : left ↔ right) : error.when left = error.when right := by
  simp only [Error.when, same]

open Reader (Judges)

/-- Any bytes hold a scalar. -/
theorem Scalar.judges_read (scalar : Scalar) : scalar.read.Judges scalar.width fun _ => none where
  accepts {bytes} filled _ rest := by
    refine ⟨scalar.ofBytes ⟨bytes, filled⟩, scalar.run_read_eq_ok_iff.mpr ?_⟩
    rw [scalar.write_ofBytes]
  refuses _ faulty := by cases faulty

namespace Format

/-- The tag at the front of a field with a slot. -/
def tagOf (bytes : List UInt8) : UInt32 := UInt32.ofNat (ofLittleEndian (bytes.take 4))

/-- What is wrong with the bytes of a field of fixed width, if anything is. -/
def fault? : Format → List UInt8 → Option Error
  | .flag, bytes =>
      let byte := bytes.headD 0
      (Error.invalidBool byte).when (byte ≠ 0 ∧ byte ≠ 1)
  | .accountState, bytes =>
      let byte := bytes.headD 0
      (Error.invalidAccountState byte).when (byte ≠ 0 ∧ byte ≠ 1 ∧ byte ≠ 2)
  | .slotted _, bytes =>
      let tag := tagOf bytes
      (Error.invalidOptionDiscriminant tag).when (tag ≠ 0 ∧ tag ≠ 1)
  | .scalar _, _ => none
  | .nonzero _, _ => none
  | .tagged _, _ => none
  | .text, _ => none
  | .pairs, _ => none

/-- Only a byte that stands for one of a few values, or the tag of a slot, can be wrong. -/
theorem error_of_fault? {format : Format} {bytes : List UInt8} {error : Error}
    (faulty : format.fault? bytes = some error) :
    (∃ byte, error = .invalidBool byte ∨ error = .invalidAccountState byte) ∨
      format.hasSlot = true ∧ ∃ tag, error = .invalidOptionDiscriminant tag := by
  cases format with
  | flag =>
      rcases Error.when_eq_some_iff.mp faulty with ⟨-, rfl⟩
      exact .inl ⟨_, .inl rfl⟩
  | accountState =>
      rcases Error.when_eq_some_iff.mp faulty with ⟨-, rfl⟩
      exact .inl ⟨_, .inr rfl⟩
  | slotted item =>
      rcases Error.when_eq_some_iff.mp faulty with ⟨-, rfl⟩
      exact .inr ⟨rfl, _, rfl⟩
  | scalar | nonzero | tagged | text | pairs => cases faulty

theorem judges_read_flag : flag.read.Judges 1 flag.fault? := by
  have first (byte : UInt8) (rest : List UInt8) := Scalar.run_read_append .u8 byte rest
  constructor
  case accepts =>
    intro bytes filled clean rest
    obtain ⟨byte, rfl⟩ := List.length_eq_one_iff.mp filled
    have known : ¬ (byte ≠ 0 ∧ byte ≠ 1) := Error.when_eq_none_iff.mp clean
    by_cases zero : byte = 0
    · exact ⟨false, by rw [zero]; rfl⟩
    · have one : byte = 1 := by simpa [zero] using known
      exact ⟨true, by rw [one]; rfl⟩
  case refuses =>
    intro bytes error filled faulty rest
    obtain ⟨byte, rfl⟩ := List.length_eq_one_iff.mp filled
    obtain ⟨⟨notZero, notOne⟩, rfl⟩ : (byte ≠ 0 ∧ byte ≠ 1) ∧ Error.invalidBool byte = error :=
      Error.when_eq_some_iff.mp faulty
    refine ⟨rest, (Reader.run_bind_of_ok (first byte rest)).trans ?_⟩
    rw [if_neg notZero, if_neg notOne]
    rfl

theorem judges_read_accountState : accountState.read.Judges 1 accountState.fault? := by
  have first (byte : UInt8) (rest : List UInt8) := Scalar.run_read_append .u8 byte rest
  constructor
  case accepts =>
    intro bytes filled clean rest
    obtain ⟨byte, rfl⟩ := List.length_eq_one_iff.mp filled
    have known : ¬ (byte ≠ 0 ∧ byte ≠ 1 ∧ byte ≠ 2) := Error.when_eq_none_iff.mp clean
    obtain ⟨state, rfl⟩ : ∃ state : AccountState, state.code = byte := by
      by_cases zero : byte = 0
      · exact ⟨.uninitialized, zero.symm⟩
      · by_cases one : byte = 1
        · exact ⟨.initialized, one.symm⟩
        · have two : byte = 2 := by simpa [zero, one] using known
          exact ⟨.frozen, two.symm⟩
    exact ⟨state, (Reader.run_bind_of_ok (first state.code rest)).trans (by simp)⟩
  case refuses =>
    intro bytes error filled faulty rest
    obtain ⟨byte, rfl⟩ := List.length_eq_one_iff.mp filled
    obtain ⟨⟨notZero, notOne, notTwo⟩, rfl⟩ :
        (byte ≠ 0 ∧ byte ≠ 1 ∧ byte ≠ 2) ∧ Error.invalidAccountState byte = error :=
      Error.when_eq_some_iff.mp faulty
    have unknown : AccountState.ofCode? byte = none := by
      rw [Option.eq_none_iff_forall_ne_some]
      intro state known
      have code := AccountState.code_of_ofCode? known
      cases state with
      | uninitialized => exact notZero code.symm
      | initialized => exact notOne code.symm
      | frozen => exact notTwo code.symm
    refine ⟨rest, (Reader.run_bind_of_ok (first byte rest)).trans ?_⟩
    rw [unknown]
    rfl

/-- The slot is read before the tag is looked at, and may hold anything. -/
theorem judges_read_slotted (item : Scalar) :
    (slotted item).read.Judges (4 + item.width) (slotted item).fault? := by
  apply Judges.orRestore
  have reads {bytes : List UInt8} (filled : bytes.length = 4 + item.width) (rest : List UInt8) :
      ∃ value, (do
        let tag ← Scalar.u32.read
        let value ← item.read
        readOption tag (pure none) (pure (some value))).run (bytes ++ rest) =
          (readOption (tagOf bytes) (pure none) (pure (some value))).run rest := by
    have front : (bytes.take 4).length = 4 := List.length_take_of_le (by omega)
    have back : (bytes.drop 4).length = item.width := by
      rw [List.length_drop]
      omega
    have tag : Scalar.u32.read.run (bytes ++ rest) =
        (.ok (tagOf bytes), bytes.drop 4 ++ rest) := by
      have held : Scalar.u32.write (tagOf bytes) = bytes.take 4 :=
        Scalar.u32.write_ofBytes ⟨bytes.take 4, front⟩
      rw [Scalar.run_read_eq_ok_iff, held, ← List.append_assoc, List.take_append_drop]
    rcases item.judges_read.accepts back rfl rest with ⟨value, slot⟩
    exact ⟨value, by rw [Reader.run_bind_of_ok tag, Reader.run_bind_of_ok slot]⟩
  constructor
  case accepts =>
    intro bytes filled clean rest
    have known : ¬ (tagOf bytes ≠ 0 ∧ tagOf bytes ≠ 1) := Error.when_eq_none_iff.mp clean
    rcases reads filled rest with ⟨value, read⟩
    by_cases zero : tagOf bytes = 0
    · exact ⟨none, by rw [read, zero]; rfl⟩
    · have one : tagOf bytes = 1 := by simpa [zero] using known
      exact ⟨some value, by rw [read, one]; rfl⟩
  case refuses =>
    intro bytes error filled faulty rest
    rcases Error.when_eq_some_iff.mp faulty with ⟨⟨notZero, notOne⟩, rfl⟩
    rcases reads filled rest with ⟨value, read⟩
    refine ⟨rest, ?_⟩
    rw [read, readOption, if_neg notZero, if_neg notOne]
    rfl

/-- A field of fixed width is read from its own bytes unless they have a fault. -/
theorem judges_read {format : Format} {width : Nat} (fixed : format.width? = some width) :
    format.read.Judges width format.fault? := by
  cases format with
  | scalar item =>
      cases fixed
      exact item.judges_read
  | flag =>
      cases fixed
      exact judges_read_flag
  | accountState =>
      cases fixed
      exact judges_read_accountState
  | nonzero kind =>
      cases fixed
      exact (Scalar.blob kind).judges_read.bind_pure _
  | slotted item =>
      cases fixed
      exact judges_read_slotted item
  | tagged | text | pairs => cases fixed

end Format

namespace Layout

variable {Description : Type} {Value : Description → Type}
variable {readField : (type : Description) → Reader (Value type)}
variable {fieldFault? : Description → List UInt8 → Option Error}
variable {fieldWidth? : Description → Option Nat}

/-- What is wrong with the bytes of the fields: the first fault that a field has.  Where a field
begins is known only behind fields of fixed width. -/
def fault? (fieldFault? : Description → List UInt8 → Option Error)
    (fieldWidth? : Description → Option Nat) : Layout Description → List UInt8 → Option Error
  | [], _ => none
  | field :: rest, bytes =>
      match fieldWidth? field.type with
      | some width =>
          (fieldFault? field.type (bytes.take width)).or
            (fault? fieldFault? fieldWidth? rest (bytes.drop width))
      | none => none

/-- Fields of fixed width are read unless one of them has a fault, and refused for the first. -/
theorem judges_read
    (each : ∀ type width, fieldWidth? type = some width →
      (readField type).Judges width (fieldFault? type))
    {layout : Layout Description} {width : Nat} (fixed : layout.width? fieldWidth? = some width) :
    (layout.read readField).Judges width (layout.fault? fieldFault? fieldWidth?) := by
  induction layout generalizing width with
  | nil =>
      cases fixed
      exact Reader.judges_pure ()
  | cons field fields ih =>
      simp only [width?, Option.bind_eq_bind, Option.bind_eq_some_iff, Option.some.injEq] at fixed
      rcases fixed with ⟨first, firstFixed, others, othersFixed, rfl⟩
      simp only [fault?, firstFixed]
      apply (each field.type first firstFixed).bind
      intro value
      exact (ih othersFixed).bind_pure _

/-- A fault of the fields is a fault of one of them. -/
theorem exists_of_fault? {layout : Layout Description} {bytes : List UInt8} {error : Error}
    (faulty : layout.fault? fieldFault? fieldWidth? bytes = some error) :
    ∃ field ∈ layout, ∃ part, fieldFault? field.type part = some error := by
  induction layout generalizing bytes with
  | nil => cases faulty
  | cons field fields ih =>
      rw [fault?] at faulty
      split at faulty
      · rcases Option.or_eq_some_iff.mp faulty with first | ⟨-, others⟩
        · exact ⟨field, List.mem_cons_self, _, first⟩
        · rcases ih others with ⟨other, member, part, found⟩
          exact ⟨other, List.mem_cons_of_mem _ member, part, found⟩
      · cases faulty

end Layout

namespace FieldType

/-- What is wrong with the bytes of a field, if anything is. -/
def fault? : FieldType → List UInt8 → Option Error
  | .plain format => format.fault?
  | .group fields => fields.fault? Format.fault? Format.width?

theorem judges_read {type : FieldType} {width : Nat} (fixed : type.width? = some width) :
    type.read.Judges width type.fault? := by
  cases type with
  | plain format => exact Format.judges_read fixed
  | group fields => exact Layout.judges_read (fun _ _ => Format.judges_read) fixed

theorem error_of_fault? {type : FieldType} {bytes : List UInt8} {error : Error}
    (faulty : type.fault? bytes = some error) :
    (∃ byte, error = .invalidBool byte ∨ error = .invalidAccountState byte) ∨
      type.hasSlot = true ∧ ∃ tag, error = .invalidOptionDiscriminant tag := by
  cases type with
  | plain format => exact Format.error_of_fault? faulty
  | group fields =>
      rcases Layout.exists_of_fault? faulty with ⟨field, member, part, found⟩
      rcases Format.error_of_fault? found with byte | ⟨slotted, tag⟩
      · exact .inl byte
      · exact .inr ⟨List.any_eq_true.mpr ⟨field, member, slotted⟩, tag⟩

end FieldType

namespace Record

variable {α : Type} [Record α]

/-- What is wrong with the bytes of a record, if anything is. -/
def fault? (α : Type) [Record α] (bytes : List UInt8) : Option Error :=
  (layout α).fault? FieldType.fault? FieldType.width? bytes

/-- A record of fixed width is read unless one of its fields has a fault, and refused for the
first. -/
theorem judges_read {width : Nat} (fixed : width? α = some width) :
    (read : Reader α).Judges width (fault? α) :=
  (Layout.judges_read (fun _ _ => FieldType.judges_read) fixed).bind_pure _

/-- A record of fixed width is refused for a byte or for the tag of a slot. -/
theorem error_of_fault? {bytes : List UInt8} {error : Error}
    (faulty : fault? α bytes = some error) :
    (∃ byte, error = .invalidBool byte ∨ error = .invalidAccountState byte) ∨
      (∃ field ∈ layout α, field.type.hasSlot = true) ∧
        ∃ tag, error = .invalidOptionDiscriminant tag := by
  rcases Layout.exists_of_fault? faulty with ⟨field, member, part, found⟩
  rcases FieldType.error_of_fault? found with byte | ⟨slotted, tag⟩
  · exact .inl byte
  · exact .inr ⟨⟨field, member, slotted⟩, tag⟩

end Record

end TokenAccounts
