import TokenAccounts.Extension.Entries
import TokenAccounts.Proofs.Field.Failure
import TokenAccounts.Proofs.Field.Record
import TokenAccounts.Proofs.Outcome

/-!
# Extensions and the data of their entries

An extension is read from the data that is written of it, and from no other data.  What keeps an
extension from being read back as it was written is one of three things: raw data under the code
of a kind, a count that is too large, and an optional value that is present as zeros.
-/

namespace TokenAccounts

namespace ExtensionKind

theorem code_injective {left right : ExtensionKind} (same : left.code = right.code) :
    left = right := by
  have found := ofCode?_code left
  rw [same, ofCode?_code] at found
  exact (Option.some.inj found).symm

/-- The values of extensions have no slots, so each is written in just one way. -/
theorem hasSlot_eq_false (kind : ExtensionKind) :
    ∀ field ∈ Record.layout kind.Value, field.type.hasSlot = false := by
  have slotless : (Record.layout kind.Value).all (fun field => !field.type.hasSlot) = true := by
    cases kind <;> rfl
  simpa using slotless

theorem checkLength_write (kind : ExtensionKind) (value : kind.Value) :
    kind.checkLength (Record.write value) = .ok () := by
  unfold checkLength
  have length := kind.length_write_value value
  unfold size at length
  cases fixed : kind.fixedLength? with
  | none => rfl
  | some width =>
      simp only [fixed] at length
      exact if_pos length

/-- What is written of a value is read back as its normal form. -/
theorem unpack_write (kind : ExtensionKind) (value : kind.Value) (fits : Record.Fits value) :
    kind.unpack (Record.write value) = .ok (Record.normalize value) := by
  have read := Record.run_read_append value fits []
  rw [List.append_nil] at read
  simp only [unpack, checkLength_write, read]
  rfl

/-- Data is read as a value just if it is what is written of the value, and the value is one that
can be read back. -/
theorem unpack_eq_ok_iff (kind : ExtensionKind) {data : List UInt8} {value : kind.Value} :
    kind.unpack data = .ok value ↔
      Record.write value = data ∧ Record.Fits value ∧ Record.Settled value := by
  constructor
  · intro unpacked
    rcases Outcome.bind_eq_ok_iff.mp unpacked with ⟨_, _, found⟩
    split at found
    · next held read =>
        cases found
        obtain ⟨same, restorable⟩ :=
          (Record.run_read_eq_ok_iff_of_slotless kind.hasSlot_eq_false).mp read
        rw [List.append_nil] at same
        exact ⟨same.symm, restorable⟩
    · cases found
    · cases found
  · intro conditions
    rcases conditions with ⟨rfl, fits, settled⟩
    rw [kind.unpack_write value fits, (Record.normalize_eq_self_iff value).mpr settled]

/-- Data that is refused has the wrong length for its kind or a field that cannot be read. -/
theorem error_of_unpack (kind : ExtensionKind) {data : List UInt8} {error : Error}
    (refused : kind.unpack data = .error error) :
    error.OfField ∨
      ∃ expected found, expected ≠ found ∧ error = .invalidExtensionLength kind expected found := by
  rcases Outcome.bind_eq_error_iff.mp refused with wrong | ⟨_, _, failed⟩
  · unfold checkLength at wrong
    split at wrong
    · split at wrong
      · cases wrong
      · next different =>
          cases wrong
          exact .inr ⟨_, _, Ne.symm different, rfl⟩
    · cases wrong
  · split at failed
    · cases failed
    · next value rest behind read =>
        cases failed
        refine .inr ⟨_, _, ?_, rfl⟩
        rcases Record.run_read_eq_ok_iff.mp read with ⟨bytes, rfl, -⟩
        have positive := List.length_pos_iff.mpr behind
        rw [List.length_append]
        omega
    · next cause rest read =>
        cases failed
        exact .inl (Record.failsOnly_read kind.Value _ _ _ read)

end ExtensionKind

namespace Extension

/-- Whether raw data is under a code that no kind has. -/
def Proper : Extension → Prop
  | .typed _ _ => True
  | .unparsed code _ => ExtensionKind.ofCode? code = none

/-- Whether every text and table of an extension fits the count in front of it. -/
def Fits : Extension → Prop
  | .typed _ value => Record.Fits value
  | .unparsed _ _ => True

/-- Whether no field of an extension is present as the zeros that stand for its absence. -/
def Settled : Extension → Prop
  | .typed _ value => Record.Settled value
  | .unparsed _ _ => True

theorem normalize_eq_self_iff (extension : Extension) :
    extension.normalize = extension ↔ extension.Settled := by
  cases extension with
  | typed kind value => simp [normalize, Settled, Record.normalize_eq_self_iff]
  | unparsed code data => simp [normalize, Settled]

theorem unpack_kind_code (kind : ExtensionKind) (data : List UInt8) :
    unpack kind.code data = (kind.unpack data).map (.typed kind) := by
  simp [unpack]

/-- Data under a code is read as an extension just if it is what is written of the extension, the
code is that of the extension, and the extension is one that can be read back. -/
theorem unpack_eq_ok_iff {code : UInt16} {data : List UInt8} {extension : Extension} :
    unpack code data = .ok extension ↔
      extension.code = code ∧ extension.write = data ∧
        extension.Proper ∧ extension.Fits ∧ extension.Settled := by
  cases known : ExtensionKind.ofCode? code with
  | none =>
      have raw : unpack code data = .ok (.unparsed code data) := by simp [unpack, known]
      rw [raw, Except.ok.injEq]
      constructor
      · intro same
        subst same
        exact ⟨rfl, rfl, known, trivial, trivial⟩
      · intro conditions
        rcases conditions with ⟨rfl, rfl, -, -, -⟩
        cases extension with
        | typed kind value => simp [Extension.code] at known
        | unparsed code data => rfl
  | some kind =>
      rcases ExtensionKind.code_of_ofCode? known with rfl
      rw [unpack_kind_code]
      constructor
      · intro unpacked
        rcases Outcome.map_eq_ok_iff.mp unpacked with ⟨value, valueUnpacked, rfl⟩
        rcases kind.unpack_eq_ok_iff.mp valueUnpacked with ⟨rfl, fits, settled⟩
        exact ⟨rfl, rfl, trivial, fits, settled⟩
      · intro conditions
        rcases conditions with ⟨sameCode, rfl, proper, fits, settled⟩
        cases extension with
        | typed other value =>
            rcases ExtensionKind.code_injective sameCode with rfl
            exact Outcome.map_eq_ok_iff.mpr
              ⟨value, other.unpack_eq_ok_iff.mpr ⟨rfl, fits, settled⟩, rfl⟩
        | unparsed code data =>
            rw [Proper, show code = kind.code from sameCode, known] at proper
            cases proper

/-- Data that is refused under a code is refused for a cause in its value. -/
theorem error_of_unpack {code : UInt16} {data : List UInt8} {error : Error}
    (refused : unpack code data = .error error) :
    error.OfField ∨ ∃ kind expected found, expected ≠ found ∧
      error = .invalidExtensionLength kind expected found := by
  unfold unpack at refused
  split at refused
  · next kind known =>
      rcases kind.error_of_unpack (Outcome.map_eq_error_iff.mp refused) with field | length
      · exact .inl field
      · exact .inr ⟨kind, length⟩
  · cases refused

/-- No value is refused for being cut short. -/
theorem unpack_ne_truncated {code type : UInt16} {data : List UInt8} {declared remaining : Nat} :
    unpack code data ≠ .error (.truncatedExtensionData type declared remaining) := by
  intro refused
  rcases error_of_unpack refused with field | ⟨kind, expected, found, -, same⟩
  · exact field
  · cases same

/-! ## The value of one kind -/

/-- Of the extensions that can be read back, just those with the code of a kind hold its values. -/
theorem value?_eq_none_iff {extension : Extension} (proper : extension.Proper)
    (kind : ExtensionKind) : extension.value? kind = none ↔ extension.code ≠ kind.code := by
  cases extension with
  | typed found value =>
      by_cases same : found = kind
      · subst same
        simp [value?, Extension.code]
      · have codes : found.code ≠ kind.code :=
          fun equal => same (ExtensionKind.code_injective equal)
        simp [value?, same, Extension.code, codes]
  | unparsed code data =>
      have foreign : code ≠ kind.code := by
        intro same
        subst same
        simp [Proper] at proper
      simp [value?, Extension.code, foreign]

theorem eq_typed_of_value? {extension : Extension} {kind : ExtensionKind} {value : kind.Value}
    (found : extension.value? kind = some value) : extension = .typed kind value := by
  cases extension with
  | typed other held =>
      simp only [value?] at found
      split at found
      · next same =>
          subst same
          cases found
          rfl
      · cases found
  | unparsed code data => cases found

/-! ## Extensions that can be written -/

/-- An extension can be written if its code is not reserved, raw data is not under the code of a
kind, and the length of the value fits in the entry. -/
theorem obstacle?_eq_none_iff (extension : Extension) :
    extension.obstacle? = none ↔
      extension.code ≠ 0 ∧ extension.Proper ∧ extension.size ≤ Entry.maxLength := by
  by_cases reserved : extension.code = 0
  · simp [obstacle?, reserved]
  · cases extension with
    | typed kind value => simp [obstacle?, Proper, reserved]
    | unparsed code data =>
        have unreserved : code ≠ 0 := reserved
        cases known : ExtensionKind.ofCode? code <;>
          simp [obstacle?, Proper, Extension.code, unreserved, known]

/-- Nothing but its length keeps a value of a kind from being written. -/
theorem obstacle?_typed (kind : ExtensionKind) (value : kind.Value) :
    (typed kind value).obstacle? =
      if kind.size value ≤ Entry.maxLength then none
      else some (.extensionTooLarge (kind.size value)) :=
  if_neg kind.code_ne_zero

/-- Metadata is the only value that can be too long. -/
theorem obstacle?_typed_of_ne {kind : ExtensionKind} (other : kind ≠ .tokenMetadata)
    (value : kind.Value) : (typed kind value).obstacle? = none := by
  have small : kind.size value ≤ Entry.maxLength := by
    cases kind with
    | tokenMetadata => exact absurd rfl other
    | _ => simp [ExtensionKind.size, ExtensionKind.fixedLength?, Entry.maxLength]
  rw [obstacle?_typed, if_pos small]

/-- What is short enough for an entry is far too short for a count that does not fit. -/
theorem fits_of_size_le {extension : Extension} (small : extension.size ≤ Entry.maxLength) :
    extension.Fits := by
  cases extension with
  | typed kind value =>
      apply Record.fits_of_size_lt
      rw [← Record.length_write, kind.length_write_value]
      exact Nat.lt_of_le_of_lt small (by decide)
  | unparsed code data => trivial

/-- What is written of an extension is read as its normal form, if counts are small and raw data is
under no code of a kind. -/
theorem unpack_write_of_fits {extension : Extension} (proper : extension.Proper)
    (fits : extension.Fits) : unpack extension.code extension.write = .ok extension.normalize := by
  cases extension with
  | typed kind value =>
      rw [Extension.code, unpack_kind_code, write, kind.unpack_write value fits]
      rfl
  | unparsed code data =>
      rw [Proper] at proper
      simp [unpack, Extension.code, write, normalize, proper]

/-- An extension that can be written is read back as its normal form. -/
theorem unpack_write {extension : Extension} (writable : extension.obstacle? = none) :
    unpack extension.code extension.write = .ok extension.normalize := by
  rcases extension.obstacle?_eq_none_iff.mp writable with ⟨-, proper, small⟩
  exact unpack_write_of_fits proper (fits_of_size_le small)

end Extension

end TokenAccounts
