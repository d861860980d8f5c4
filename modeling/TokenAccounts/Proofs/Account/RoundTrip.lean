import TokenAccounts.Proofs.Account.Grammar

/-!
# Writing what was read and reading what was written

An account that was written is read back as its normal form, with any number of unused zeros behind
it.  In the other direction, an account that was read is written as the data it was read from, but
for three things: slots of absent values in the base record are cleared, what lies behind the last
entry is dropped, and two zeros are added if the data would be as long as a multisignature account.
-/

namespace TokenAccounts

namespace Account

open AccountLayout

variable {kind : AccountKind} {data : List UInt8} {account : Account kind}

/-! ## Reading what was written -/

theorem normalize_eq_self_iff (account : Account kind) :
    account.normalize = account ↔ ∀ extension ∈ account.list, extension.Settled := by
  rcases account with ⟨base, extensions⟩
  cases extensions with
  | none => simp [normalize, list]
  | some extensions =>
      have each := List.map_inj_left (l := extensions) (f := Extension.normalize) (g := id)
      simp only [List.map_id, id, Extension.normalize_eq_self_iff] at each
      simpa [normalize, list] using each

/-- A frame around a written base record is read as that record and the entries. -/
theorem unpack_frame_write {base : kind.Base} {entries : List UInt8}
    (length_ne : (frame kind (Record.write base) entries).length ≠ Multisig.length) :
    unpack kind (frame kind (Record.write base) entries) =
      (Extension.unpackAll entries).map fun extensions => ⟨base, some extensions⟩ := by
  have filled := AccountKind.length_write_base base
  have extended := extended_frame filled length_ne
  rw [unpack_of_extended extended, unpackBase_of_length_le (Nat.le_of_lt extended.baseLength_lt),
    take_frame filled, drop_frame filled, AccountKind.read_base_write, Outcome.ok_bind]
  cases Extension.unpackAll entries <;> rfl

/-- A base record with entries and unused bytes around it is read as that record and the normal
forms of the extensions. -/
theorem unpack_frame {base : kind.Base} {extensions : List Extension} {unused : List UInt8}
    (writable : ∀ extension ∈ extensions, extension.obstacle? = none)
    (isTail : Entry.IsTail unused)
    (length_ne : (frame kind (Record.write base)
      (Extension.writeAll extensions ++ unused)).length ≠ Multisig.length) :
    unpack kind (frame kind (Record.write base) (Extension.writeAll extensions ++ unused)) =
      .ok ⟨base, some (extensions.map Extension.normalize)⟩ := by
  rw [unpack_frame_write length_ne, Extension.unpackAll_writeAll writable isTail]
  rfl

/-- A base record alone is read as that record. -/
theorem unpack_write_base (base : kind.Base) :
    unpack kind (Record.write base) = .ok ⟨base, none⟩ := by
  have filled := AccountKind.length_write_base base
  rw [unpack_of_bare filled, unpackBase_of_length_le (Nat.le_of_eq filled.symm),
    List.take_of_length_le (Nat.le_of_eq filled), AccountKind.read_base_write]
  rfl

/-- A written account with unused zeros behind it is read as its normal form.  That is the account
itself just if no optional address or key of an extension is present as all zeros. -/
theorem unpack_pack_append_zeros {bytes : List UInt8} {count : Nat}
    (packed : account.pack = .ok bytes)
    (bare : account.extensions = none → count = 0)
    (length_ne : account.extensions ≠ none → bytes.length + count ≠ Multisig.length) :
    unpack kind (bytes ++ List.replicate count 0) = .ok account.normalize ∧
      (unpack kind (bytes ++ List.replicate count 0) = .ok account ↔
        ∀ extension ∈ account.list, extension.Settled) := by
  have normal : unpack kind (bytes ++ List.replicate count 0) = .ok account.normalize := by
    rcases account with ⟨base, extensions⟩
    cases extensions with
    | none =>
        rcases bare rfl with rfl
        cases packed
        rw [List.replicate_zero, List.append_nil, unpack_write_base]
        rfl
    | some extensions =>
        rcases pack_eq_ok_iff.mp packed with ⟨writable, rfl⟩
        rcases exists_filler_eq (entriesStart + Extension.totalSize extensions) with ⟨added, filled⟩
        -- The zeros that were added and those behind them make one tail.
        have joined : frame kind (Record.write base) (Extension.writeAll extensions ++
              filler (entriesStart + Extension.totalSize extensions)) ++ List.replicate count 0 =
            frame kind (Record.write base)
              (Extension.writeAll extensions ++ List.replicate (added + count) 0) := by
          rw [frame_append, List.append_assoc, filled, List.replicate_append_replicate]
        have lengths := congrArg List.length joined
        rw [List.length_append, List.length_replicate] at lengths
        have allowed := length_ne (Option.some_ne_none extensions)
        rw [lengths] at allowed
        rw [joined]
        exact unpack_frame writable (Entry.isTail_replicate_zero _) allowed
  refine ⟨normal, ?_⟩
  rw [normal, Except.ok.injEq]
  exact normalize_eq_self_iff account

/-- A mint whose entries end where a multisignature account does, and whose authority to close it
is present as zeros. -/
def crowdedMint : Account .mint where
  base := ⟨none, 1000, 9, true, some (.zero .address)⟩
  extensions := some [
    .typed .mintCloseAuthority ⟨some (.zero .address)⟩,
    .unparsed 777 (List.replicate 149 7)]

/-- With four more zeros behind it, that mint is read without the authority to close it. -/
theorem unpack_crowdedMint :
    ∃ bytes, crowdedMint.pack = .ok bytes ∧ bytes.length + 4 ≠ Multisig.length ∧
      unpack .mint (bytes ++ List.replicate 4 0) = .ok crowdedMint.normalize ∧
      unpack .mint (bytes ++ List.replicate 4 0) ≠ .ok crowdedMint := by
  obtain ⟨bytes, packed, length⟩ :
      ∃ bytes, crowdedMint.pack = .ok bytes ∧ bytes.length = Multisig.length + 2 :=
    ⟨_, pack_eq_ok_iff.mpr ⟨by decide +kernel, rfl⟩,
      (length_frame_filler crowdedMint.base _).trans (by decide +kernel)⟩
  have length_ne : bytes.length + 4 ≠ Multisig.length := by omega
  obtain ⟨read, same⟩ :=
    unpack_pack_append_zeros packed (by simp [crowdedMint]) fun _ => length_ne
  refine ⟨bytes, packed, length_ne, read, ?_⟩
  rw [Ne, same]
  intro settled
  have authority := settled (.typed .mintCloseAuthority ⟨some (.zero .address)⟩)
    (by simp [list, crowdedMint])
  exact authority.1 rfl

/-! ## Writing what was read -/

theorem isTail_filler (length : Nat) : Entry.IsTail (filler length) := by
  rcases exists_filler_eq length with ⟨count, filled⟩
  rw [filled]
  exact Entry.isTail_replicate_zero count

/-- A written account is read as its normal form. -/
theorem unpack_of_pack {bytes : List UInt8} (packed : account.pack = .ok bytes) :
    unpack kind bytes = .ok account.normalize := by
  cases account with
  | mk base extensions =>
      cases extensions with
      | none =>
          cases packed
          exact unpack_write_base base
      | some extensions =>
          rcases pack_eq_ok_iff.mp packed with ⟨writable, rfl⟩
          apply unpack_frame writable (isTail_filler _)
          rw [length_frame_filler]
          exact avoidMultisig_ne _

/-- The data that an account is written as which was read from the given data. -/
def rewritten (kind : AccountKind) (data : List UInt8) : Option (List Extension) → List UInt8
  | none => Record.clearAbsent kind.Base data
  | some extensions =>
      let used := entriesStart + Extension.totalSize extensions
      Record.clearAbsent kind.Base (data.take kind.baseLength) ++
        (data.take used).drop kind.baseLength ++ filler used

/-- The bytes a base record was read from are, once cleared, what is written of it. -/
theorem clearAbsent_of_unpackBase {base : kind.Base} (long : kind.baseLength ≤ data.length)
    (based : unpackBase kind data = .ok base) :
    Record.clearAbsent kind.Base (data.take kind.baseLength) = Record.write base := by
  rw [unpackBase_of_length_le long,
    AccountKind.read_base_eq_ok_iff (List.length_take_of_le long)] at based
  exact (based.clearAbsent_eq kind.width?_base).1

/-- The parts of data that an extended account was read from. -/
theorem of_unpack_extended {base : kind.Base} {extensions : List Extension}
    (unpacked : unpack kind data = .ok ⟨base, some extensions⟩) :
    Extended kind data ∧
      Record.clearAbsent kind.Base (data.take kind.baseLength) = Record.write base ∧
      (∃ unused, data.drop entriesStart = Extension.writeAll extensions ++ unused) ∧
      ∀ extension ∈ extensions, extension.obstacle? = none ∧ extension.Settled := by
  rcases unpack_eq_ok_some_iff.mp unpacked with ⟨extended, based, listed⟩
  have cleared := clearAbsent_of_unpackBase (Nat.le_of_lt extended.baseLength_lt) based
  rcases Extension.of_unpackAll listed with ⟨unused, divided, -, readBack⟩
  exact ⟨extended, cleared, ⟨unused, divided⟩, readBack⟩

/-- What an extended account is written as again is a frame around its entries. -/
theorem rewritten_eq_frame {base : kind.Base} {extensions : List Extension} {unused : List UInt8}
    (extended : Extended kind data)
    (cleared : Record.clearAbsent kind.Base (data.take kind.baseLength) = Record.write base)
    (divided : data.drop entriesStart = Extension.writeAll extensions ++ unused) :
    rewritten kind data (some extensions) =
      frame kind (Record.write base) (Extension.writeAll extensions ++
        filler (entriesStart + Extension.totalSize extensions)) := by
  rcases extended.take_eq_frame divided with ⟨kept, -⟩
  rw [Extension.length_writeAll] at kept
  simp only [rewritten]
  rw [cleared, kept, append_drop_frame extended.length_take (AccountKind.length_write_base base),
    frame_append]

/-- An account that was read is written as the data it was read from, up to what is not part of
it, and that is read as the same account. -/
theorem pack_of_unpack (unpacked : unpack kind data = .ok account) :
    account.pack = .ok (rewritten kind data account.extensions) ∧
      unpack kind (rewritten kind data account.extensions) = .ok account ∧
      (∀ extensions, account.extensions = some extensions →
        entriesStart + Extension.totalSize extensions ≤ data.length ∧
        (data.take (entriesStart + Extension.totalSize extensions)).drop entriesStart =
          Extension.writeAll extensions) ∧
      ((rewritten kind data account.extensions).length ≤ data.length ∨
        ∃ extensions, account.extensions = some extensions ∧
          entriesStart + Extension.totalSize extensions = Multisig.length ∧
          data.length = Multisig.length + 1 ∧
          (rewritten kind data account.extensions).length = Multisig.length + 2) := by
  rcases account with ⟨base, _ | extensions⟩
  · rcases unpack_eq_ok_none_iff.mp unpacked with ⟨bare, based⟩
    have cleared := clearAbsent_of_unpackBase (Nat.le_of_eq bare.symm) based
    rw [List.take_of_length_le (Nat.le_of_eq bare)] at cleared
    simp only [rewritten, cleared]
    refine ⟨rfl, unpack_write_base base, by simp, .inl ?_⟩
    exact Nat.le_of_eq ((AccountKind.length_write_base base).trans bare.symm)
  · rcases of_unpack_extended unpacked with ⟨extended, cleared, ⟨unused, divided⟩, readBack⟩
    rcases extended.take_eq_frame divided with ⟨kept, length⟩
    rw [Extension.length_writeAll] at kept length
    have writable (extension) (member : extension ∈ extensions) := (readBack extension member).1
    have settled := (normalize_eq_self_iff ⟨base, some extensions⟩).mpr
      fun extension member => (readBack extension member).2
    have again := rewritten_eq_frame extended cleared divided
    have size := length_frame_filler base extensions
    have length_ne := avoidMultisig_ne (entriesStart + Extension.totalSize extensions)
    refine ⟨?packs, ?reads, ?keeps, ?shortens⟩
    case packs => exact pack_eq_ok_iff.mpr ⟨writable, again⟩
    case reads =>
      rw [← size] at length_ne
      rw [again, unpack_frame writable (isTail_filler _) length_ne]
      exact congrArg Except.ok settled
    case keeps =>
      rintro _ ⟨⟩
      refine ⟨by omega, ?_⟩
      rw [kept, drop_frame extended.length_take]
    case shortens =>
      have data_length_ne := extended.length_ne
      rw [again, size]
      unfold avoidMultisig
      split
      · next full =>
          by_cases one : data.length = Multisig.length + 1
          · exact .inr ⟨extensions, rfl, full, one, by omega⟩
          · exact .inl (by omega)
      · exact .inl (by omega)

theorem unpack_spareToken :
    unpack .token spareToken = .ok
      { base :=
          { mint := ⟨List.replicate 32 1, rfl⟩, owner := ⟨List.replicate 32 1, rfl⟩,
            amount := 0x0101010101010101, delegate := none, state := .initialized,
            isNative := none, delegatedAmount := 0, closeAuthority := none }
        extensions := some [.unparsed 777 (List.replicate 185 5)] } := by
  refine unpack_eq_ok_iff.mpr
    (.extended extended_spareToken ?_ divides_spareToken (.cons rfl .nil))
  decide +kernel

/-- An account that is one byte too long to be a multisignature account grows when it is written
again. -/
theorem pack_spareToken :
    ∃ account, unpack .token spareToken = .ok account ∧
      account.pack = .ok (rewritten .token spareToken account.extensions) ∧
      unpack .token (rewritten .token spareToken account.extensions) = .ok account ∧
      spareToken.length = Multisig.length + 1 ∧
      (rewritten .token spareToken account.extensions).length = Multisig.length + 2 := by
  rcases pack_of_unpack unpack_spareToken with ⟨packed, again, -, -⟩
  exact ⟨_, unpack_spareToken, packed, again, by decide +kernel, by decide +kernel⟩

end Account

end TokenAccounts
