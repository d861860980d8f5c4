import TokenAccounts.Proofs.Account.BaseRecord
import TokenAccounts.Proofs.Account.Grammar
import TokenAccounts.Proofs.Account.Indexed
import TokenAccounts.Proofs.Extension.Refusal

/-!
# No data leads out of range

Main statement: read by position, every account, entry and record has an outcome, because no byte
out of range and no negative difference is asked for; it is the same as read from the front; and
what is reported of data that is refused is possible for data of its kind.
-/

namespace TokenAccounts

namespace Multisig

variable {data : List UInt8} {error : Error}

/-- Behind the two counts stand a flag, which may be wrong, and the signers. -/
theorem judges_readSigners (m n : UInt8) (count : Nat) :
    (do
      let isInitialized ← Format.flag.read
      let signers ← Reader.times Scalar.address.read count
      pure { m, n, isInitialized, signers : Multisig }).Judges
        (1 + Scalar.address.width * count)
        fun bytes => (Format.flag.fault? (bytes.take 1)).or none :=
  Format.judges_read_flag.bind fun _ => ((Scalar.judges_read .address).times count).bind_pure _

/-- There are bytes for as many signers as are read. -/
theorem error_of_unpack (refused : unpack data = .error error) :
    error = .invalidAccountSize data.length ∨ ∃ byte, error = .invalidBool byte := by
  by_cases filled : data.length = length
  · obtain ⟨m, afterM, rfl⟩ := List.exists_of_length_succ data filled
    obtain ⟨n, places, rfl⟩ := List.exists_of_length_succ afterM (Nat.succ.inj filled)
    have enough : 1 + Scalar.address.width * min n.toNat maxSigners ≤ places.length :=
      calc 1 + Scalar.address.width * min n.toNat maxSigners
          ≤ 1 + Scalar.address.width * maxSigners :=
            Nat.add_le_add_left (Nat.mul_le_mul_left _ (Nat.min_le_right ..)) 1
        _ = places.length := (Nat.succ.inj (Nat.succ.inj filled)).symm
    have judged := judges_readSigners m n (min n.toNat maxSigners)
    have front := List.length_take_of_le enough
    have byteRead (byte : UInt8) (rest : List UInt8) :
        Scalar.u8.read.run (byte :: rest) = (.ok byte, rest) :=
      Scalar.run_read_append .u8 byte rest
    rw [unpack, if_pos filled, Reader.outcome, read, Reader.run_bind_of_ok (byteRead m _),
      Reader.run_bind_of_ok (byteRead n _),
      ← List.take_append_drop (1 + Scalar.address.width * min n.toNat maxSigners) places] at refused
    cases faulty : (Format.flag.fault? _).or none with
    | none =>
        obtain ⟨multisig, signersRead⟩ := judged.accepts front faulty _
        rw [signersRead] at refused
        cases refused
    | some cause =>
        obtain ⟨left, signersRead⟩ := judged.refuses front faulty _
        rw [signersRead] at refused
        cases refused
        rw [Option.or_none] at faulty
        obtain ⟨-, rfl⟩ := Error.when_eq_some_iff.mp faulty
        exact .inr ⟨_, rfl⟩
  · rw [unpack, if_neg filled] at refused
    cases refused
    exact .inl rfl

theorem truthful_of_unpack (refused : unpack data = .error error) : error.Truthful := by
  rcases error_of_unpack refused with rfl | ⟨byte, rfl⟩ <;> trivial

end Multisig

namespace Account

open AccountLayout
open Checked (settled)

variable {kind : AccountKind} {data : List UInt8} {error : Error}

/-- Data that is long enough is refused as a base record for a byte or a tag. -/
theorem error_of_unpackBase (refused : unpackBase kind data = .error error) :
    error = .invalidAccountSize data.length ∨
      (∃ byte, error = .invalidBool byte ∨ error = .invalidAccountState byte) ∨
        ∃ tag, error = .invalidOptionDiscriminant tag := by
  rcases unpackBase_eq_error_iff.mp refused with ⟨-, rfl⟩ | ⟨-, faulty⟩
  · exact .inl rfl
  · rw [← kind.fault?_base] at faulty
    exact .inr ((Record.error_of_fault? faulty).imp_right And.right)

theorem truthful_of_unpackBase (refused : unpackBase kind data = .error error) :
    error.Truthful := by
  rcases error_of_unpackBase refused with rfl | ⟨byte, rfl | rfl⟩ | ⟨tag, rfl⟩ <;> trivial

/-- What is wrong with the tag is reported without any lengths to compare. -/
theorem truthful_of_checkTag (refused : checkTag kind data = .error error) : error.Truthful := by
  unfold checkTag at refused
  cases tagged : data[tagIndex]? with
  | none =>
      rw [tagged] at refused
      cases refused
      trivial
  | some tag =>
      rw [tagged] at refused
      dsimp only at refused
      split_ifs at refused <;> cases refused <;> trivial

theorem truthful_of_check (refused : check kind data = .error error) : error.Truthful := by
  unfold check at refused
  split at refused
  · cases refused
    trivial
  · split at refused
    · cases refused
    · exact truthful_of_checkTag refused

theorem truthful_of_unpack (refused : unpack kind data = .error error) : error.Truthful := by
  cases unpack_eq_error_iff.mp refused with
  | frame misframed => exact truthful_of_check (check_of_misframed misframed)
  | base framed failed => exact truthful_of_unpackBase failed
  | value extended based divided readable failed => exact Extension.truthful_of_unpack failed
  | truncated extended based divided readable => exact divided.valid.2.2

theorem truthful_of_findBytes {type : ExtensionType}
    (refused : findBytes kind data type = .error error) : error.Truthful := by
  rcases Outcome.bind_eq_error_iff.mp refused with foreign | ⟨_, -, checking⟩
  · unfold checkBelongs at foreign
    split at foreign
    · cases foreign
    · cases foreign
      trivial
  · rcases Outcome.bind_eq_error_iff.mp checking with failed | ⟨_, -, looking⟩
    · exact truthful_of_check failed
    · split at looking
      · cases looking
        trivial
      · exact Extension.truthful_of_findBytes looking

/-- An account that is refused for being too short or not UTF-8 has metadata that is. -/
theorem exists_metadata_of_unpack_ofText (ofText : error.OfText)
    (refused : unpack kind data = .error error) :
    ∃ entries ending, Entry.Divides (data.drop entriesStart) entries ending ∧
      ∃ entry ∈ entries, entry.code = ExtensionKind.tokenMetadata.code ∧
        entry.unpack = .error error := by
  cases unpack_eq_error_iff.mp refused with
  | frame misframed => cases misframed <;> exact False.elim ofText
  | base framed failed =>
      rcases error_of_unpackBase failed with rfl | ⟨byte, rfl | rfl⟩ | ⟨tag, rfl⟩ <;>
        exact False.elim ofText
  | value extended based divided readable failed =>
      exact ⟨_, _, divided, _, List.mem_append_right _ List.mem_cons_self,
        Extension.code_of_unpack_ofText ofText failed, failed⟩
  | truncated extended based divided readable => exact False.elim ofText

/-- Whether a computation by position always has an outcome, namely that of the computation from the
front, and what is reported then is true. -/
structure Sound {α : Type} (checked : Checked α) (outcome : Except Error α) : Prop where
  exists_outcome : checked = settled outcome
  truthful : ∀ error, outcome = .error error → error.Truthful

/-- No data makes any of the decoders ask for a byte out of range or for a negative difference, and
the numbers in what they report are in the relation that the report speaks of.  Values of fixed
length are refused for their length or a byte, base records and multisignature accounts never for
being too short, and accounts for that or for bytes that are not UTF-8 only if they have
metadata. -/
theorem decoding_stays_in_range :
    (∀ (kind : AccountKind) (data : List UInt8),
      Sound (unpackIndexed kind data) (unpack kind data) ∧
      Sound (checkTagIndexed kind data) (checkTag kind data) ∧
      Sound (unpackBaseIndexed kind data) (unpackBase kind data) ∧
      ∀ type, Sound (findBytesIndexed kind data type) (findBytes kind data type)) ∧
    (∀ data : List UInt8,
      Sound (Extension.unpackAllFrom data 0) (Extension.unpackAll data) ∧
      Sound (Multisig.unpackIndexed data) (Multisig.unpack data) ∧
      ∀ code, Sound (Extension.unpackIndexed code data) (Extension.unpack code data)) ∧
    (∀ (wanted : ExtensionKind) (length : Nat) (data : List UInt8) (error : Error),
      wanted.fixedLength? = some length → Extension.unpack wanted.code data = .error error →
        data.length ≠ length ∧ error = .invalidExtensionLength wanted length data.length ∨
          data.length = length ∧
            ∃ byte, error = .invalidBool byte ∨ error = .invalidAccountState byte) ∧
    (∀ (wanted : ExtensionKind) (length : Nat) (data : List UInt8),
      wanted.fixedLength? = some length → data.length ≠ length →
        Extension.unpack wanted.code data =
          .error (.invalidExtensionLength wanted length data.length)) ∧
    (∀ (kind : AccountKind) (data : List UInt8) (needed remaining : Nat),
      unpackBase kind data ≠ .error (.bufferTooShort needed remaining) ∧
        Multisig.unpack data ≠ .error (.bufferTooShort needed remaining)) ∧
    (∀ (kind : AccountKind) (data : List UInt8) (error : Error),
      unpack kind data = .error error →
        (∃ needed remaining, error = .bufferTooShort needed remaining) ∨ error = .invalidUtf8 →
          ∃ entries ending, Entry.Divides (data.drop entriesStart) entries ending ∧
            ∃ entry ∈ entries, entry.code = ExtensionKind.tokenMetadata.code ∧
              entry.unpack = .error error) := by
  refine ⟨?accounts, ?values, ?fixed, ?lengths, ?records, ?metadata⟩
  case accounts =>
    intro kind data
    exact ⟨⟨unpackIndexed_eq kind data, fun _ => truthful_of_unpack⟩,
      ⟨checkTagIndexed_eq kind data, fun _ => truthful_of_checkTag⟩,
      ⟨unpackBaseIndexed_eq kind data, fun _ => truthful_of_unpackBase⟩,
      fun type => ⟨findBytesIndexed_eq kind data type, fun _ => truthful_of_findBytes⟩⟩
  case values =>
    intro data
    exact ⟨⟨Extension.unpackAllFrom_eq data 0, fun _ => Extension.truthful_of_unpackAll⟩,
      ⟨Multisig.unpackIndexed_eq data, fun _ => Multisig.truthful_of_unpack⟩,
      fun code => ⟨Extension.unpackIndexed_eq code data, fun _ => Extension.truthful_of_unpack⟩⟩
  case fixed =>
    intro wanted length data error fixed refused
    exact Extension.error_of_unpack_of_fixed fixed refused
  case lengths =>
    intro wanted length data fixed different
    rw [Extension.unpack_kind_code, ExtensionKind.unpack_of_length_ne fixed different]
    rfl
  case records =>
    intro kind data needed remaining
    constructor
    · intro refused
      rcases error_of_unpackBase refused with same | ⟨byte, same | same⟩ | ⟨tag, same⟩ <;>
        cases same
    · intro refused
      rcases Multisig.error_of_unpack refused with same | ⟨byte, same⟩ <;> cases same
  case metadata =>
    intro kind data error refused cause
    apply exists_metadata_of_unpack_ofText ?_ refused
    rcases cause with ⟨needed, remaining, rfl⟩ | rfl
    · exact truthful_of_unpack refused
    · trivial

/-- The data of a mint whose metadata has room for no address. -/
def crampedMint : List UInt8 :=
  List.replicate 165 0 ++ [1] ++ (Entry.header 19 10 ++ List.replicate 10 0)

theorem unpack_crampedMint : unpack .mint crampedMint = .error (.bufferTooShort 32 10) := by
  have extended : Extended .mint crampedMint :=
    ⟨by decide +kernel, by decide +kernel, by decide +kernel, by decide +kernel⟩
  have divided : Entry.Divides (crampedMint.drop entriesStart)
      ([] ++ ⟨19, List.replicate 10 0⟩ :: []) (.tail []) := by
    refine ⟨by decide +kernel, ?_, .inl (by decide)⟩
    rintro _ (_ | ⟨_, ⟨⟩⟩)
    exact ⟨by decide, by decide +kernel⟩
  have based : unpackBase .mint crampedMint = .ok ⟨none, 0, 0, false, none⟩ := by decide +kernel
  exact unpack_eq_error_iff.mpr
    (.value extended based divided (by simp) (by decide +kernel))

/-- That mint is refused for its metadata, and a value of fixed length for its length. -/
theorem decoding_stays_in_range_crampedMint :
    unpack .mint crampedMint = .error (.bufferTooShort 32 10) ∧
      (∃ entries ending, Entry.Divides (crampedMint.drop entriesStart) entries ending ∧
        ∃ entry ∈ entries, entry.code = ExtensionKind.tokenMetadata.code ∧
          entry.unpack = .error (.bufferTooShort 32 10)) ∧
      Extension.unpack ExtensionKind.pausable.code [1, 2] =
        .error (.invalidExtensionLength .pausable 33 2) := by
  obtain ⟨-, -, -, lengths, -, metadata⟩ := decoding_stays_in_range
  exact ⟨unpack_crampedMint, metadata _ _ _ unpack_crampedMint (.inl ⟨32, 10, rfl⟩),
    lengths .pausable 33 [1, 2] rfl (by decide)⟩

end Account

end TokenAccounts
