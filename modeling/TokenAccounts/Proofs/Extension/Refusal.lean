import TokenAccounts.Proofs.Extension.Entries
import TokenAccounts.Proofs.Extension.Value
import TokenAccounts.Proofs.Field.Fault

/-!
# Why extensions are refused

What is reported has numbers in it, and they are in the relation that the report speaks of.  Main
statements: a value of fixed length is refused for its length, and if that is right, for one of its
bytes; only metadata is refused for being too short or not UTF-8.
-/

namespace TokenAccounts

/-- Whether the numbers in a cause are in the relation that it speaks of. -/
def Error.Truthful : Error → Prop
  | .bufferTooShort needed remaining => remaining < needed
  | .truncatedExtensionData _ declared remaining => remaining < declared
  | .invalidExtensionLength _ expected found => expected ≠ found
  | _ => True

theorem Error.OfField.truthful {error : Error} (ofField : error.OfField) : error.Truthful := by
  cases error with
  | bufferTooShort needed remaining => exact ofField
  | truncatedExtensionData | invalidExtensionLength => exact False.elim ofField
  | _ => trivial

/-! ## Values of fixed length -/

namespace ExtensionKind

variable {kind : ExtensionKind} {length : Nat} {data : List UInt8} {error : Error}

theorem unpack_of_length_ne (fixed : kind.fixedLength? = some length)
    (different : data.length ≠ length) :
    kind.unpack data = .error (.invalidExtensionLength kind length data.length) := by
  rw [unpack, checkLength, fixed]
  simp only [if_neg different, Outcome.error_bind]

/-- Of data that is as long as it must be, only a byte can be wrong. -/
theorem error_of_unpack_of_length_eq (fixed : kind.fixedLength? = some length)
    (filled : data.length = length) (refused : kind.unpack data = .error error) :
    ∃ byte, error = .invalidBool byte ∨ error = .invalidAccountState byte := by
  have wide : Record.width? kind.Value = some length := kind.fixedLength?_eq_width? ▸ fixed
  have judged := Record.judges_read wide
  have checked : kind.checkLength data = .ok () := by
    rw [checkLength, fixed]
    exact if_pos filled
  rw [unpack, checked, Outcome.ok_bind] at refused
  cases faulty : Record.fault? kind.Value data with
  | none =>
      obtain ⟨value, read⟩ := judged.accepts filled faulty []
      rw [List.append_nil] at read
      rw [read] at refused
      cases refused
  | some cause =>
      obtain ⟨left, read⟩ := judged.refuses filled faulty []
      rw [List.append_nil] at read
      rw [read] at refused
      cases refused
      rcases Record.error_of_fault? faulty with byte | ⟨⟨field, member, slotted⟩, -⟩
      · exact byte
      · rw [kind.hasSlot_eq_false field member] at slotted
        cases slotted

theorem fixedLength?_eq_none_iff : kind.fixedLength? = none ↔ kind = .tokenMetadata := by
  cases kind <;> simp [fixedLength?]

end ExtensionKind

namespace Extension

variable {kind : ExtensionKind} {length : Nat} {data : List UInt8} {error : Error}

theorem error_of_unpack_of_fixed (fixed : kind.fixedLength? = some length)
    (refused : unpack kind.code data = .error error) :
    data.length ≠ length ∧ error = .invalidExtensionLength kind length data.length ∨
      data.length = length ∧
        ∃ byte, error = .invalidBool byte ∨ error = .invalidAccountState byte := by
  rw [unpack_kind_code] at refused
  have valueRefused := Outcome.map_eq_error_iff.mp refused
  by_cases filled : data.length = length
  · exact .inr ⟨filled, ExtensionKind.error_of_unpack_of_length_eq fixed filled valueRefused⟩
  · rw [ExtensionKind.unpack_of_length_ne fixed filled] at valueRefused
    cases valueRefused
    exact .inl ⟨filled, rfl⟩

/-- Only metadata is refused for being too short or not UTF-8. -/
theorem code_of_unpack_ofText {code : UInt16} (ofText : error.OfText)
    (refused : unpack code data = .error error) : code = ExtensionKind.tokenMetadata.code := by
  cases known : ExtensionKind.ofCode? code with
  | none =>
      rw [unpack, known] at refused
      cases refused
  | some kind =>
      obtain rfl := ExtensionKind.code_of_ofCode? known
      cases fixed : kind.fixedLength? with
      | none => rw [ExtensionKind.fixedLength?_eq_none_iff.mp fixed]
      | some length =>
          rcases error_of_unpack_of_fixed fixed refused with ⟨-, rfl⟩ | ⟨-, byte, rfl | rfl⟩ <;>
            exact False.elim ofText

theorem truthful_of_unpack {code : UInt16} (refused : unpack code data = .error error) :
    error.Truthful := by
  rcases error_of_unpack refused with ofField | ⟨kind, expected, found, different, rfl⟩
  · exact ofField.truthful
  · exact different

theorem truthful_of_unpackAll (refused : unpackAll data = .error error) : error.Truthful := by
  obtain ⟨entries, ending, divided⟩ := Entry.exists_divides data
  rcases (unpackAll_eq_error_iff divided).mp refused with
    ⟨before, entry, after, -, -, failed⟩ | ⟨-, code, declared, left, rfl, rfl⟩
  · exact truthful_of_unpack failed
  · exact divided.valid.2.2

theorem truthful_of_findBytes {type : ExtensionType}
    (refused : findBytes data type = .error error) : error.Truthful := by
  obtain ⟨entries, ending, divided⟩ := Entry.exists_divides data
  rw [findBytes_eq divided] at refused
  split at refused
  · cases refused
  · cases ending with
    | tail unused =>
        cases refused
        trivial
    | cut code declared left =>
        cases refused
        exact divided.valid.2.2

end Extension

end TokenAccounts
