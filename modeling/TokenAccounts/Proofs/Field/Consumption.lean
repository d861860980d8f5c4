import Mathlib.Data.List.Chain
import TokenAccounts.Proofs.Field.Failure
import TokenAccounts.Proofs.Field.Sequence

/-!
# What failed reads consume

A read that fails leaves the cursor somewhere, and the next read goes on from there.  Main
statement: along any run of reads the cursor stays in the data and never goes back, and how far a
failed read has moved it is known from the cause: not at all if bytes are missing or a tag is none
that there is, behind a byte that has no meaning, and behind a text that is not UTF-8.
-/

namespace TokenAccounts

open Reader (FailsOnly failsOnly_pure failsOnly_take)

/-! ## Runs by position -/

/-- Read values one after the other by position. -/
def readAllIndexed (data : List UInt8) : Nat → List Format → Option (List Step × Nat)
  | offset, [] => some ([], offset)
  | offset, format :: rest => do
      let (outcome, stop) ← format.readIndexed.run data offset
      let (steps, last) ← readAllIndexed data stop rest
      some (⟨format, offset, outcome, stop⟩ :: steps, last)

/-- Whether a step of a run reads some data from one position to a later one. -/
structure Step.Reads (data : List UInt8) (step : Step) : Prop where
  ordered : step.start ≤ step.stop
  inside : step.stop ≤ data.length
  read : step.format.read.run (data.drop step.start) = (step.outcome, data.drop step.stop)

/-- The cursor stays in the data and never goes back, and reads by position do the same. -/
theorem Cursor.readAll_ofOffset {data : List UInt8} {offset : Nat} (inside : offset ≤ data.length)
    (formats : List Format) :
    let run := (ofOffset data offset).readAll formats
    readAllIndexed data offset formats = some (run.1, run.2.offset) ∧
      run.2 = ofOffset data run.2.offset ∧ run.2.offset ≤ data.length ∧
      (offset :: run.1.map Step.stop).IsChain (· ≤ ·) ∧ ∀ step ∈ run.1, step.Reads data := by
  induction formats generalizing offset with
  | nil => exact ⟨rfl, rfl, inside, .singleton _, by simp [Cursor.readAll]⟩
  | cons format formats ih =>
      rcases format.follows_read.exists_run_of_advances format.advances_read inside with
        ⟨outcome, stop, indexedRead, ordered, stopInside, read⟩
      rcases ih stopInside with ⟨indexedRun, last, lastInside, chain, reads⟩
      rw [readAll_cons (read_ofOffset ordered stopInside read)]
      refine ⟨?_, last, lastInside, ?_, ?_⟩
      · simp only [readAllIndexed, indexedRead, Option.bind_eq_bind, Option.bind_some, indexedRun]
        rfl
      · exact .cons_cons ordered chain
      · exact List.forall_mem_cons.mpr ⟨⟨ordered, stopInside, read⟩, reads⟩

/-! ## Scalars -/

namespace Scalar

variable {unread rest : List UInt8} {error : Error}

theorem run_read_eq_error_iff (scalar : Scalar) :
    scalar.read.run unread = (.error error, rest) ↔
      unread = rest ∧ unread.length < scalar.width ∧
        .bufferTooShort scalar.width unread.length = error := by
  rw [read, Reader.run_bind_eq_error_iff, Reader.run_take_eq_error_iff]
  simp

/-- Where there are enough bytes, they are those of a scalar and what follows it. -/
theorem exists_eq_write_append (scalar : Scalar) (enough : scalar.width ≤ unread.length) :
    ∃ value, unread = scalar.write value ++ unread.drop scalar.width := by
  refine ⟨scalar.ofBytes ⟨unread.take scalar.width, List.length_take_of_le enough⟩, ?_⟩
  rw [scalar.write_ofBytes, List.take_append_drop]

end Scalar

namespace Format

variable {unread rest : List UInt8} {error : Error}

/-! ## How far a failed read has moved -/

/-- How many of the unread bytes a failed read has consumed, for the causes of which the read of a
single value can fail. -/
def consumed? (unread : List UInt8) : Error → Option Nat
  | .bufferTooShort _ _ => some 0
  | .invalidOptionDiscriminant _ => some 0
  | .invalidBool _ => some 1
  | .invalidAccountState _ => some 1
  | .invalidUtf8 => some (4 + ofLittleEndian (unread.take 4))
  | _ => none

/-- Whether a cause says that nothing was consumed. -/
def GivesBack (error : Error) : Prop := ∀ unread, consumed? unread error = some 0

theorem failsOnly_givesBack (scalar : Scalar) : FailsOnly GivesBack scalar.read :=
  FailsOnly.bind_pure (failsOnly_take fun _ _ _ => rfl) _

theorem failsOnly_givesBack_readOption {item : Scalar} (tag : UInt32) :
    FailsOnly GivesBack (readOption tag (pure none) (do
      let value ← item.read
      pure (some value))) :=
  failsOnly_readOption (fun _ => rfl) (failsOnly_pure _) ((failsOnly_givesBack item).bind_pure _)

theorem failsOnly_givesBack_readTextBytes : FailsOnly GivesBack readTextBytes := by
  apply FailsOnly.orRestore
  apply (failsOnly_givesBack .u32).bind
  intro length
  exact FailsOnly.bind_pure (failsOnly_take fun _ _ _ => rfl) _

/-- A read that gives back what it consumed, and fails only for causes that say so, has consumed
nothing. -/
theorem consumed?_of_orRestore {α : Type} {reader : Reader α}
    (fails : FailsOnly GivesBack reader)
    (failed : (Reader.orRestore reader).run unread = (.error error, rest)) :
    consumed? unread error = some 0 ∧ unread = rest := by
  rcases Reader.run_orRestore_eq_error_iff.mp failed with ⟨same, left, inner⟩
  exact ⟨fails _ _ _ inner unread, same⟩

theorem consumed?_of_scalar {item : Scalar} (failed : item.read.run unread = (.error error, rest)) :
    consumed? unread error = some 0 ∧ unread = rest := by
  rcases item.run_read_eq_error_iff.mp failed with ⟨same, -, rfl⟩
  exact ⟨rfl, same⟩

/-- Bytes of a text that are not UTF-8 are consumed with their length. -/
theorem consumed?_of_text {bytes : List UInt8}
    (read : readTextBytes.run unread = (.ok bytes, rest)) :
    ∃ width, consumed? unread .invalidUtf8 = some width ∧ rest.length + width = unread.length := by
  rcases eq_of_run_readTextBytes read with ⟨rfl, fits⟩
  refine ⟨_, rfl, ?_⟩
  have declared : bytes.length % limit 4 = bytes.length := Nat.mod_eq_of_lt fits
  rw [List.append_assoc, List.take_left' (length_littleEndian 4 _), ofLittleEndian_littleEndian,
    declared]
  simp only [List.length_append, length_littleEndian]
  omega

/-- A failed read of a single value has consumed as much as the cause says. -/
theorem exists_consumed? (format : Format) (single : format ≠ .pairs)
    (failed : format.read.run unread = (.error error, rest)) :
    ∃ width, consumed? unread error = some width ∧ rest.length + width = unread.length := by
  have nothing (kept : consumed? unread error = some 0 ∧ unread = rest) :
      ∃ width, consumed? unread error = some width ∧ rest.length + width = unread.length :=
    ⟨0, kept.1, congrArg List.length kept.2.symm⟩
  -- Behind a byte that could be read, only its meaning can be at fault.
  have oneByte {byte : UInt8} (read : Scalar.u8.read.run unread = (.ok byte, rest)) :
      rest.length + 1 = unread.length := by
    rw [(Scalar.run_read_eq_ok_iff .u8).mp read]
    rfl
  cases format with
  | scalar item => exact nothing (consumed?_of_scalar failed)
  | nonzero kind =>
      rcases Reader.run_bind_eq_error_iff.mp failed with short | ⟨blob, middle, _, ending⟩
      · exact nothing (consumed?_of_scalar short)
      · simp at ending
  | flag =>
      rcases Reader.run_bind_eq_error_iff.mp failed with short | ⟨byte, middle, byteRead, choice⟩
      · exact nothing (consumed?_of_scalar short)
      · split at choice
        · simp at choice
        · split at choice
          · simp at choice
          · cases choice
            exact ⟨1, rfl, oneByte byteRead⟩
  | accountState =>
      rcases Reader.run_bind_eq_error_iff.mp failed with short | ⟨byte, middle, byteRead, choice⟩
      · exact nothing (consumed?_of_scalar short)
      · split at choice
        · simp at choice
        · cases choice
          exact ⟨1, rfl, oneByte byteRead⟩
  | tagged item =>
      apply nothing
      apply consumed?_of_orRestore _ failed
      apply (failsOnly_givesBack .u8).bind
      intro tag
      exact failsOnly_givesBack_readOption _
  | slotted item =>
      apply nothing
      apply consumed?_of_orRestore _ failed
      apply (failsOnly_givesBack .u32).bind
      intro tag
      apply (failsOnly_givesBack item).bind
      intro value
      exact failsOnly_readOption (fun _ => rfl) (failsOnly_pure _) (failsOnly_pure _)
  | text =>
      rcases Reader.run_bind_eq_error_iff.mp failed with short | ⟨bytes, middle, bytesRead, choice⟩
      · rcases Reader.run_orRestore_eq_error_iff.mp short with ⟨same, -⟩
        exact nothing ⟨failsOnly_givesBack_readTextBytes _ _ _ short unread, same⟩
      · split at choice
        · simp at choice
        · cases choice
          exact consumed?_of_text bytesRead
  | pairs => exact absurd rfl single

/-! ## Which failure comes first -/

/-- Whether a read fails because bytes are missing. -/
def TooShort {α : Type} (reader : Reader α) (unread : List UInt8) : Prop :=
  ∃ needed remaining, reader.outcome unread = .error (.bufferTooShort needed remaining)

theorem tooShort_iff {α : Type} {reader : Reader α} :
    TooShort reader unread ↔
      ∃ needed remaining rest,
        reader.run unread = (.error (.bufferTooShort needed remaining), rest) := by
  constructor
  · rintro ⟨needed, remaining, outcome⟩
    exact ⟨needed, remaining, _, Prod.ext outcome rfl⟩
  · rintro ⟨needed, remaining, rest, run⟩
    exact ⟨needed, remaining, congrArg Prod.fst run⟩

theorem tooShort_orRestore_iff {α : Type} {reader : Reader α} :
    TooShort (Reader.orRestore reader) unread ↔ TooShort reader unread := by
  simp only [tooShort_iff, Reader.run_orRestore_eq_error_iff, exists_eq_left']

/-- Bytes are missing for one read after the other if they are for the first, or for the second in
what the first leaves. -/
theorem tooShort_bind_iff {α β : Type} {reader : Reader α} {next : α → Reader β} :
    TooShort (reader >>= next) unread ↔
      TooShort reader unread ∨
        ∃ value middle, reader.run unread = (.ok value, middle) ∧ TooShort (next value) middle := by
  simp only [tooShort_iff, Reader.run_bind_eq_error_iff]
  constructor
  · rintro ⟨needed, remaining, rest, first | ⟨value, middle, read, second⟩⟩
    · exact .inl ⟨needed, remaining, rest, first⟩
    · exact .inr ⟨value, middle, read, needed, remaining, rest, second⟩
  · rintro (⟨needed, remaining, rest, first⟩ |
      ⟨value, middle, read, needed, remaining, rest, second⟩)
    · exact ⟨needed, remaining, rest, .inl first⟩
    · exact ⟨needed, remaining, rest, .inr ⟨value, middle, read, second⟩⟩

theorem tooShort_take_iff {width : Nat} :
    TooShort (Reader.take width) unread ↔ unread.length < width := by
  simp [tooShort_iff, Reader.run_take_eq_error_iff]

theorem not_tooShort_pure {α : Type} {value : α} : ¬ TooShort (pure value) unread := by
  simp [TooShort, Reader.outcome]

theorem tooShort_scalar_iff (item : Scalar) :
    TooShort item.read unread ↔ unread.length < item.width := by
  rw [Scalar.read, tooShort_bind_iff, tooShort_take_iff]
  simp [not_tooShort_pure]

/-- Behind a scalar that is there, bytes are missing for what follows just if they are behind its
width. -/
theorem tooShort_scalar_bind_iff (item : Scalar) {β : Type} {next : item.Value → Reader β} :
    TooShort (item.read >>= next) unread ↔
      unread.length < item.width ∨ ∃ value middle, unread = item.write value ++ middle ∧
        TooShort (next value) middle := by
  simp only [tooShort_bind_iff, tooShort_scalar_iff, item.run_read_eq_ok_iff]

theorem not_tooShort_readOption {α : Type} {tag : UInt32} {absent present : Option α} :
    ¬ TooShort (readOption tag (pure absent) (pure present)) unread := by
  unfold readOption
  split
  · exact not_tooShort_pure
  · split
    · exact not_tooShort_pure
    · simp [TooShort, Reader.outcome]

/-- The slot of a value must be there, whatever the tag in front of it says. -/
theorem tooShort_slotted_iff (item : Scalar) :
    TooShort (slotted item).read unread ↔ unread.length < 4 + item.width := by
  rw [read, tooShort_orRestore_iff, tooShort_scalar_bind_iff]
  simp only [tooShort_scalar_bind_iff, not_tooShort_readOption, and_false, exists_false, or_false]
  constructor
  · rintro (short | ⟨tag, middle, rfl, short⟩)
    · exact Nat.lt_of_lt_of_le short (Nat.le_add_right 4 item.width)
    · rw [List.length_append, Scalar.length_write]
      exact Nat.add_lt_add_left short 4
  · intro short
    by_cases tagShort : unread.length < 4
    · exact .inl tagShort
    · have enough : Scalar.u32.width ≤ unread.length := Nat.le_of_not_lt tagShort
      rcases Scalar.exists_eq_write_append .u32 enough with ⟨tag, same⟩
      refine .inr ⟨tag, _, same, ?_⟩
      rw [List.length_drop]
      exact Nat.sub_lt_left_of_lt_add enough short

/-- A length that was written in front of some bytes is the number that the first four denote. -/
theorem ofLittleEndian_take_write (length : UInt32) (rest : List UInt8) :
    ofLittleEndian ((Scalar.u32.write length ++ rest).take 4) = length.toNat := by
  have width : (Scalar.u32.write length).length = 4 := Scalar.length_write .u32 length
  rw [List.take_left' width, Scalar.write, ofLittleEndian_littleEndian]
  exact Nat.mod_eq_of_lt length.toNat_lt

theorem tooShort_readTextBytes_iff :
    TooShort readTextBytes unread ↔
      unread.length < 4 ∨ unread.length < 4 + ofLittleEndian (unread.take 4) := by
  rw [readTextBytes, tooShort_orRestore_iff, tooShort_scalar_bind_iff]
  simp only [tooShort_bind_iff, tooShort_take_iff, not_tooShort_pure, and_false, exists_false,
    or_false]
  constructor
  · rintro (short | ⟨length, middle, rfl, short⟩)
    · exact .inl short
    · rw [ofLittleEndian_take_write, List.length_append, Scalar.length_write]
      exact .inr (Nat.add_lt_add_left short 4)
  · rintro (short | short)
    · exact .inl short
    · by_cases lengthShort : unread.length < 4
      · exact .inl lengthShort
      · have enough : Scalar.u32.width ≤ unread.length := Nat.le_of_not_lt lengthShort
        rcases Scalar.exists_eq_write_append .u32 enough with ⟨length, same⟩
        refine .inr ⟨length, _, same, ?_⟩
        rw [same, ofLittleEndian_take_write, ← same] at short
        rw [List.length_drop]
        exact Nat.sub_lt_left_of_lt_add enough short

/-- Bytes are missing for a text just if they are for its length, or behind it for what it
declares. -/
theorem tooShort_text_iff :
    TooShort text.read unread ↔
      unread.length < 4 ∨ unread.length < 4 + ofLittleEndian (unread.take 4) := by
  rw [read, readText, tooShort_bind_iff, tooShort_readTextBytes_iff]
  apply or_iff_left
  rintro ⟨bytes, middle, -, short⟩
  split at short
  · exact not_tooShort_pure short
  · simp [TooShort, Reader.outcome] at short

/-- A tag that is none that there is is refused before it is known whether a value follows. -/
theorem outcome_tagged_of_lt (item : Scalar) {tag : UInt8} (unknown : 1 < tag)
    (rest : List UInt8) :
    (tagged item).read.outcome (tag :: rest) =
      .error (.invalidOptionDiscriminant tag.toUInt32) := by
  have tagRead : Scalar.u8.read.run (tag :: rest) = (.ok tag, rest) :=
    Scalar.run_read_append .u8 tag rest
  have notZero : tag.toUInt32 ≠ 0 := by
    intro zero
    have same : tag = 0 := UInt8.toUInt32_inj.mp zero
    exact absurd (same ▸ unknown) (by decide)
  have notOne : tag.toUInt32 ≠ 1 := by
    intro one
    have same : tag = 1 := UInt8.toUInt32_inj.mp one
    exact absurd (same ▸ unknown) (by decide)
  have failed : (tagged item).read.run (tag :: rest) =
      (.error (.invalidOptionDiscriminant tag.toUInt32), tag :: rest) := by
    apply Reader.run_orRestore_eq_error_iff.mpr
    refine ⟨rfl, rest, ?_⟩
    rw [Reader.run_bind_of_ok tagRead, readOption, if_neg notZero, if_neg notOne, Reader.run_fail]
  exact congrArg Prod.fst failed

end Format

/-- Along any run of reads, which goes on after failures, the cursor is in the data and never goes
back; reads by position do the same, and never ask for bytes out of range.  A failed read of a
single value has moved the cursor as far as the cause says.  Outcomes and distances depend on what
is unread only.  For a value in a slot, bytes are missing just if tag and slot are not both there;
for one behind a tag byte, a tag that is none that there is is refused also if the value is not
there; for a text they are if its length, or what it declares, is not there. -/
theorem failed_reads_consume_as_specified :
    (∀ (data : List UInt8) (formats : List Format),
      let run := (Cursor.start data).readAll formats
      readAllIndexed data 0 formats = some (run.1, run.2.offset) ∧
        run.2 = Cursor.ofOffset data run.2.offset ∧ run.2.offset ≤ data.length ∧
        (0 :: run.1.map Step.stop).IsChain (· ≤ ·) ∧
        ∀ step ∈ run.1, step.stop ≤ data.length ∧
          ∀ error, step.outcome = .error error → step.format ≠ .pairs →
            ∃ width, Format.consumed? (data.drop step.start) error = some width ∧
              step.stop = step.start + width) ∧
    (∀ (format : Format) (data other : List UInt8) (offset otherOffset : Nat),
      offset ≤ data.length → otherOffset ≤ other.length →
        data.drop offset = other.drop otherOffset →
          ∃ outcome width, format.readIndexed.run data offset = some (outcome, offset + width) ∧
            format.readIndexed.run other otherOffset = some (outcome, otherOffset + width)) ∧
    (∀ (item : Scalar) (unread : List UInt8),
      Format.TooShort (Format.slotted item).read unread ↔ unread.length < 4 + item.width) ∧
    (∀ (item : Scalar) (tag : UInt8) (rest : List UInt8), 1 < tag →
      (Format.tagged item).read.outcome (tag :: rest) =
        .error (.invalidOptionDiscriminant tag.toUInt32)) ∧
    ∀ unread : List UInt8, Format.TooShort Format.text.read unread ↔
      unread.length < 4 ∨ unread.length < 4 + ofLittleEndian (unread.take 4) := by
  refine ⟨?runs, ?unreadOnly, fun item unread => Format.tooShort_slotted_iff item,
    fun item tag rest unknown => Format.outcome_tagged_of_lt item unknown rest,
    fun unread => Format.tooShort_text_iff⟩
  case runs =>
    intro data formats
    rcases Cursor.readAll_ofOffset (Nat.zero_le data.length) formats with
      ⟨indexedRun, last, lastInside, chain, reads⟩
    refine ⟨indexedRun, last, lastInside, chain, ?_⟩
    intro step member
    have reads := reads step member
    refine ⟨reads.inside, ?_⟩
    intro error failed single
    have read := reads.read
    rw [failed] at read
    rcases step.format.exists_consumed? single read with ⟨width, consumed, lengths⟩
    rw [List.length_drop, List.length_drop] at lengths
    have inside := reads.inside
    have ordered := reads.ordered
    exact ⟨width, consumed, by omega⟩
  case unreadOnly =>
    intro format data other offset otherOffset inside otherInside same
    exact format.follows_read.run_congr format.advances_read inside otherInside same

/-- A byte that is no truth value, three bytes of text that are not UTF-8, and four bytes more. -/
def brokenData : List UInt8 := [2, 3, 0, 0, 0, 0xff, 0xfe, 0x41, 7, 1, 2, 3]

/-- Of six reads of this data only the fifth succeeds, where two had failed without moving. -/
theorem consumed_of_brokenData :
    let formats : List Format := [.flag, .text, .tagged .u64, .slotted .u64, .u8, .text]
    ((Cursor.start brokenData).readAll formats).1 =
      [⟨.flag, 0, .error (.invalidBool 2), 1⟩, ⟨.text, 1, .error .invalidUtf8, 8⟩,
        ⟨.tagged .u64, 8, .error (.invalidOptionDiscriminant 7), 8⟩,
        ⟨.slotted .u64, 8, .error (.bufferTooShort 8 0), 8⟩, ⟨.u8, 8, .ok 7, 9⟩,
        ⟨.text, 9, .error (.bufferTooShort 4 3), 9⟩] ∧
    readAllIndexed brokenData 0 formats =
      some (((Cursor.start brokenData).readAll formats).1, 9) ∧
    (∃ width, Format.consumed? (brokenData.drop 1) .invalidUtf8 = some width ∧ 8 = 1 + width) ∧
    (Format.tagged .u64).read.outcome [7, 1, 2, 3] = .error (.invalidOptionDiscriminant 7) ∧
    (∃ outcome width, Format.text.readIndexed.run brokenData 9 = some (outcome, 9 + width) ∧
      Format.text.readIndexed.run [1, 2, 3] 0 = some (outcome, 0 + width)) := by
  intro formats
  rcases failed_reads_consume_as_specified with ⟨runs, unreadOnly, -, unknownTag, -⟩
  rcases runs brokenData formats with ⟨indexedRun, -, -, -, steps⟩
  have run : ((Cursor.start brokenData).readAll formats).1 =
      [⟨.flag, 0, .error (.invalidBool 2), 1⟩, ⟨.text, 1, .error .invalidUtf8, 8⟩,
        ⟨.tagged .u64, 8, .error (.invalidOptionDiscriminant 7), 8⟩,
        ⟨.slotted .u64, 8, .error (.bufferTooShort 8 0), 8⟩, ⟨.u8, 8, .ok 7, 9⟩,
        ⟨.text, 9, .error (.bufferTooShort 4 3), 9⟩] := rfl
  refine ⟨run, indexedRun, ?_, unknownTag .u64 7 [1, 2, 3] (by decide),
    unreadOnly .text _ _ 9 0 (by decide) (by decide) rfl⟩
  have member : ⟨.text, 1, .error .invalidUtf8, 8⟩ ∈
      ((Cursor.start brokenData).readAll formats).1 := by
    rw [run]
    exact .tail _ (.head _)
  exact (steps _ member).2 .invalidUtf8 rfl (by decide)

end TokenAccounts
