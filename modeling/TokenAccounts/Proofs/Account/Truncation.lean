import TokenAccounts.Proofs.Account.RoundTrip
import TokenAccounts.Proofs.Extension.Truncation

/-!
# Accounts that are cut short

Data that was written and then cut short is refused, or read as an account with the same base
record that lacks the last extensions or the whole list.  Main statement: wherever the cut is,
nothing is read that was not written, and a cut inside a value is reported with what the entry
declares and what is left of it.
-/

namespace TokenAccounts

namespace Account

open AccountLayout

variable {kind : AccountKind} {account : Account kind} {base : kind.Base}
variable {entries bytes : List UInt8} {count : Nat}

/-! ## Where the cut is -/

/-- Data is no account if it is too short for a tag and not a base record, or as long as a
multisignature account. -/
theorem unpack_take_of_size (inside : count < bytes.length)
    (wrong : count ≠ kind.baseLength ∧ count < entriesStart ∨ count = Multisig.length) :
    unpack kind (bytes.take count) = .error (.invalidAccountSize count) := by
  have length : (bytes.take count).length = count := List.length_take_of_le (Nat.le_of_lt inside)
  have misframed : Misframed kind (bytes.take count)
      (.invalidAccountSize (bytes.take count).length) := by
    apply Misframed.size
    rwa [length]
  rw [unpack_of_misframed misframed, length]

/-- A base record that is cut short is no account. -/
theorem unpack_take_write_base (inside : count < (Record.write base).length) :
    unpack kind ((Record.write base).take count) = .error (.invalidAccountSize count) := by
  have shorter : count < kind.baseLength := by rwa [AccountKind.length_write_base] at inside
  have short : count < entriesStart :=
    Nat.lt_of_lt_of_le shorter (Nat.le_succ_of_le kind.baseLength_le_tagIndex)
  exact unpack_take_of_size inside (.inl ⟨Nat.ne_of_lt shorter, short⟩)

/-- A frame that is cut where its base record ends is read as the base record alone. -/
theorem unpack_take_baseLength :
    unpack kind ((frame kind (Record.write base) entries).take kind.baseLength) =
      .ok ⟨base, none⟩ := by
  rw [take_frame (AccountKind.length_write_base base), unpack_write_base]

/-- A cut behind the tag of a frame is a cut in its entries. -/
theorem take_frame_of_le {front : List UInt8} (filled : front.length = kind.baseLength)
    (long : entriesStart ≤ count) :
    (frame kind front entries).take count =
      frame kind front (entries.take (count - entriesStart)) := by
  have length := length_padTo_tagIndex filled
  have whole : (padTo tagIndex front).length ≤ count := by
    rw [length]
    exact Nat.le_of_succ_le long
  have behind : count - tagIndex = count - entriesStart + 1 := by
    simp only [tagIndex, entriesStart] at long ⊢
    omega
  rw [frame, List.take_append, List.take_of_length_le whole, length, behind, List.take_succ_cons,
    frame]

/-- A frame that is cut behind its tag is read as its base record and what is left of its
entries. -/
theorem unpack_take_of_long (inside : count < (frame kind (Record.write base) entries).length)
    (long : entriesStart ≤ count) (length_ne : count ≠ Multisig.length) :
    unpack kind ((frame kind (Record.write base) entries).take count) =
      (Extension.unpackAll (entries.take (count - entriesStart))).map
        fun extensions => ⟨base, some extensions⟩ := by
  have length := List.length_take_of_le (Nat.le_of_lt inside)
  rw [take_frame_of_le (AccountKind.length_write_base base) long] at length ⊢
  apply unpack_frame_write
  rw [length]
  exact length_ne

/-! ## What is read in front of the cut -/

/-- Wherever the data of an extended account is cut short, what is read of it is its base record and
no list or a list from the front of its own. -/
theorem prefix_of_unpack_take {extensions : List Extension} {shorter : Account kind}
    (packed : (⟨base, some extensions⟩ : Account kind).pack = .ok bytes)
    (inside : count < bytes.length) (unpacked : unpack kind (bytes.take count) = .ok shorter) :
    shorter.base = base ∧
      (shorter.extensions = none ∨ ∃ kept, shorter.extensions = some kept ∧
        kept <+: extensions.map Extension.normalize) := by
  rcases pack_eq_ok_iff.mp packed with ⟨writable, rfl⟩
  by_cases bare : count = kind.baseLength
  · subst bare
    rw [unpack_take_baseLength] at unpacked
    cases unpacked
    exact ⟨rfl, .inl rfl⟩
  by_cases wrong : count < entriesStart ∨ count = Multisig.length
  · rw [unpack_take_of_size inside (wrong.imp_left (And.intro bare))] at unpacked
    cases unpacked
  rcases not_or.mp wrong with ⟨long, length_ne⟩
  rw [unpack_take_of_long inside (Nat.le_of_not_lt long) length_ne] at unpacked
  rcases Outcome.map_eq_ok_iff.mp unpacked with ⟨kept, read, rfl⟩
  rcases exists_filler_eq (entriesStart + Extension.totalSize extensions) with ⟨zeros, filled⟩
  rw [filled] at read
  exact ⟨rfl, .inr ⟨kept, rfl, Extension.prefix_of_unpackAll_take writable read⟩⟩

/-- Data that is cut inside a value is refused for just that. -/
theorem unpack_take_of_cut {before after : List Extension} {extension : Extension}
    (packed : (⟨base, some (before ++ extension :: after)⟩ : Account kind).pack = .ok bytes)
    (inside : count < bytes.length)
    (headed : entriesStart + Extension.totalSize before + Entry.headerLength ≤ count)
    (short : count <
      entriesStart + Extension.totalSize before + Entry.headerLength + extension.size)
    (length_ne : count ≠ Multisig.length) :
    unpack kind (bytes.take count) =
      .error (.truncatedExtensionData extension.code extension.size
        (count - (entriesStart + Extension.totalSize before + Entry.headerLength))) := by
  rcases pack_eq_ok_iff.mp packed with ⟨writable, rfl⟩
  have behind : count - entriesStart - (Extension.totalSize before + Entry.headerLength) =
      count - (entriesStart + Extension.totalSize before + Entry.headerLength) := by
    omega
  rw [unpack_take_of_long inside (by omega) length_ne,
    Extension.unpackAll_take_cut writable (by omega) (by omega), behind]
  rfl

/-- Cutting the data of an account short makes up nothing.  What is read in front of the cut has
the base record of the account and no list, or a list from the front of what the whole data is read
as.  A cut between the header and the end of an entry's value is reported with the type of the
entry, the length it declares and how many bytes of the value are left. -/
theorem unpack_take_of_pack (packed : account.pack = .ok bytes) (inside : count < bytes.length) :
    (∀ shorter, unpack kind (bytes.take count) = .ok shorter →
      shorter.base = account.base ∧
        (shorter.extensions = none ∨ ∃ kept, shorter.extensions = some kept ∧
          kept <+: account.normalize.list)) ∧
    (∀ before extension after, account.list = before ++ extension :: after →
      let valueStart := entriesStart + Extension.totalSize before + Entry.headerLength
      valueStart ≤ count → count < valueStart + extension.size → count ≠ Multisig.length →
        unpack kind (bytes.take count) =
          .error (.truncatedExtensionData extension.code extension.size (count - valueStart))) := by
  cases account with
  | mk base extensions =>
      cases extensions with
      | none =>
          cases packed
          constructor
          · intro shorter unpacked
            rw [unpack_take_write_base inside] at unpacked
            cases unpacked
          · intro before extension after listed
            cases (List.append_eq_nil_iff.mp listed.symm).2
      | some extensions =>
          constructor
          · intro shorter unpacked
            exact prefix_of_unpack_take packed inside unpacked
          · intro before extension after listed
            obtain rfl : extensions = before ++ extension :: after := listed
            exact unpack_take_of_cut packed inside

/-- A cut in the second value of a mint with two extensions leaves 94 of its 149 bytes. -/
theorem unpack_crowdedMint_take :
    ∃ bytes, crowdedMint.pack = .ok bytes ∧ 300 < bytes.length ∧
      unpack .mint (bytes.take 300) = .error (.truncatedExtensionData 777 149 94) := by
  obtain ⟨bytes, packed, length⟩ :
      ∃ bytes, crowdedMint.pack = .ok bytes ∧ bytes.length = Multisig.length + 2 :=
    ⟨_, pack_eq_ok_iff.mpr ⟨by decide +kernel, rfl⟩,
      (length_frame_filler crowdedMint.base _).trans (by decide +kernel)⟩
  have inside : 300 < bytes.length := by
    rw [length]
    decide
  have cut := (unpack_take_of_pack packed inside).2
    [.typed .mintCloseAuthority ⟨some (.zero .address)⟩]
    (.unparsed 777 (List.replicate 149 7)) [] rfl
  exact ⟨bytes, packed, inside, cut (by decide) (by decide +kernel) (by decide)⟩

end Account

end TokenAccounts
