import TokenAccounts.Proofs.Extension.Packing

/-!
# Putting a list of extensions behind other bytes

A list is put behind what is there in two passes.  The first finds for every extension the length
that its entry declares, or the reason why it has no entry; only the second writes.  Main
statement: the list is written as a whole, and every length that is declared is true, or nothing is
written and the first extension without an entry says why.
-/

namespace TokenAccounts

namespace Extension

open Entry

variable {front bytes : List UInt8} {extension : Extension} {extensions : List Extension}
variable {error : Error} {length : UInt16} {lengths : List UInt16}

/-! ## Which extensions have an entry -/

/-- Whether there is an entry that an extension can be written as. -/
structure Writable (extension : Extension) : Prop where
  code_ne_zero : extension.code ≠ 0
  ne_unparsed : ∀ kind data, extension ≠ .unparsed (ExtensionKind.code kind) data
  size_le : extension.size ≤ 65535

/-- Why an extension has no entry.  The reserved code comes before anything else, and raw data under
the code of a kind is refused whatever its length. -/
inductive Obstructed : Extension → Error → Prop where
  | reserved {extension : Extension} (code_eq : extension.code = 0) :
      Obstructed extension .reservedExtensionType
  | disguised (kind : ExtensionKind) (data : List UInt8) :
      Obstructed (.unparsed kind.code data) (.unparsedKnownExtensionType kind)
  | tooLong {extension : Extension} (code_ne : extension.code ≠ 0) (proper : extension.Proper)
      (long : 65535 < extension.size) : Obstructed extension (.extensionTooLarge extension.size)

/-- Raw data is under no code of a kind just if it is not raw data of that kind. -/
theorem proper_iff :
    extension.Proper ↔ ∀ kind data, extension ≠ .unparsed (ExtensionKind.code kind) data := by
  constructor
  · intro proper kind data same
    subst same
    rw [Proper, ExtensionKind.ofCode?_code] at proper
    cases proper
  · intro other
    cases extension with
    | typed kind value => trivial
    | unparsed code data =>
        rw [Proper, Option.eq_none_iff_forall_ne_some]
        intro kind known
        rcases ExtensionKind.code_of_ofCode? known with rfl
        exact other kind data rfl

theorem obstacle?_eq_none_iff_writable : extension.obstacle? = none ↔ extension.Writable := by
  rw [obstacle?_eq_none_iff, proper_iff]
  constructor
  · intro conditions
    rcases conditions with ⟨code_ne_zero, ne_unparsed, size_le⟩
    exact ⟨code_ne_zero, ne_unparsed, size_le⟩
  · intro writable
    exact ⟨writable.code_ne_zero, writable.ne_unparsed, writable.size_le⟩

theorem obstacle?_of_reserved (code_eq : extension.code = 0) :
    extension.obstacle? = some .reservedExtensionType :=
  if_pos code_eq

theorem obstacle?_of_disguised (kind : ExtensionKind) (data : List UInt8) :
    (unparsed kind.code data).obstacle? = some (.unparsedKnownExtensionType kind) := by
  simp [obstacle?, Extension.code, kind.code_ne_zero]

/-- Where nothing else is wrong, the length decides. -/
theorem obstacle?_of_proper (code_ne : extension.code ≠ 0) (proper : extension.Proper) :
    extension.obstacle? =
      if extension.size ≤ maxLength then none else some (.extensionTooLarge extension.size) := by
  cases extension with
  | typed kind value => exact obstacle?_typed kind value
  | unparsed code data =>
      rw [Proper] at proper
      have unreserved : code ≠ 0 := code_ne
      simp [obstacle?, Extension.code, unreserved, proper]

theorem obstacle?_eq_some_iff : extension.obstacle? = some error ↔ Obstructed extension error := by
  constructor
  · intro found
    by_cases reserved : extension.code = 0
    · rw [obstacle?_of_reserved reserved] at found
      cases found
      exact .reserved reserved
    · by_cases proper : extension.Proper
      · rw [obstacle?_of_proper reserved proper] at found
        split at found
        · cases found
        · next long =>
            cases found
            exact .tooLong reserved proper (Nat.lt_of_not_le long)
      · rw [proper_iff] at proper
        push Not at proper
        rcases proper with ⟨kind, data, rfl⟩
        rw [obstacle?_of_disguised] at found
        cases found
        exact .disguised kind data
  · intro reason
    cases reason with
    | reserved code_eq => exact obstacle?_of_reserved code_eq
    | disguised kind data => exact obstacle?_of_disguised kind data
    | tooLong code_ne proper long =>
        have notShort : ¬ extension.size ≤ maxLength := Nat.not_le_of_lt long
        rw [obstacle?_of_proper code_ne proper, if_neg notShort]

/-! ## The first pass -/

/-- The length that is declared is that of the bytes which are written. -/
theorem declaredLength_eq_ok_iff :
    extension.declaredLength = .ok length ↔
      extension.obstacle? = none ∧ length.toNat = extension.write.length := by
  unfold declaredLength
  cases found : extension.obstacle? with
  | some error => simp
  | none =>
      have small := (extension.obstacle?_eq_none_iff.mp found).2.2
      have held : (UInt16.ofNat extension.size).toNat = extension.size :=
        UInt16.toNat_ofNat_of_lt' (Nat.lt_succ_of_le small)
      rw [Except.ok.injEq, extension.length_write, ← UInt16.toNat_inj, held, eq_comm]
      exact ⟨fun same => ⟨rfl, same⟩, fun conditions => conditions.2⟩

theorem declaredLength_eq_error_iff :
    extension.declaredLength = .error error ↔ extension.obstacle? = some error := by
  unfold declaredLength
  cases extension.obstacle? <;> simp

theorem exists_declaredLength_iff :
    (∃ length, extension.declaredLength = .ok length) ↔ extension.obstacle? = none := by
  cases found : extension.obstacle? <;> simp [declaredLength, found]

/-- Every entry gets a length just if every extension has an entry. -/
theorem exists_lengths_iff :
    (∃ lengths, extensions.mapM declaredLength = .ok lengths) ↔
      ∀ extension ∈ extensions, extension.obstacle? = none := by
  simp only [Outcome.mapM_eq_ok_iff]
  induction extensions with
  | nil => simp
  | cons extension extensions ih =>
      rw [List.forall_mem_cons, ← ih, ← exists_declaredLength_iff]
      simp only [List.forall₂_cons_left_iff]
      constructor
      · intro every
        rcases every with ⟨_, first, others, firstOk, othersOk, rfl⟩
        exact ⟨⟨first, firstOk⟩, others, othersOk⟩
      · intro every
        rcases every with ⟨⟨first, firstOk⟩, others, othersOk⟩
        exact ⟨_, first, others, firstOk, othersOk, rfl⟩

/-! ## The second pass -/

/-- With the lengths of the first pass, the second writes the entries of the list. -/
theorem appendEntries_zip
    (declared : List.Forall₂ (fun extension length => extension.declaredLength = .ok length)
      extensions lengths) :
    appendEntries front (extensions.zip lengths) = front ++ writeAll extensions := by
  induction declared generalizing front with
  | nil => exact (List.append_nil front).symm
  | @cons extension length extensions lengths first _ ih =>
      have true_length := (declaredLength_eq_ok_iff.mp first).2
      rw [List.zip_cons_cons, appendEntries, ih, writeAll_cons, true_length]
      simp only [toEntry, Entry.write, List.append_assoc]

/-! ## Both passes -/

theorem appendAll_eq_ok_iff :
    appendAll front extensions = (.ok (), bytes) ↔
      (∀ extension ∈ extensions, extension.obstacle? = none) ∧
        bytes = front ++ writeAll extensions := by
  rw [← exists_lengths_iff]
  unfold appendAll
  cases found : extensions.mapM declaredLength with
  | error error => simp
  | ok lengths =>
      have written : appendEntries front (extensions.zip lengths) = front ++ writeAll extensions :=
        appendEntries_zip (Outcome.mapM_eq_ok_iff.mp found)
      simp [written, eq_comm]

theorem appendAll_eq_error_iff :
    appendAll front extensions = (.error error, bytes) ↔
      bytes = front ∧ ∃ before refused after, extensions = before ++ refused :: after ∧
        (∀ extension ∈ before, extension.obstacle? = none) ∧
        refused.obstacle? = some error := by
  have firstPass : extensions.mapM declaredLength = .error error ↔
      ∃ before refused after, extensions = before ++ refused :: after ∧
        (∀ extension ∈ before, extension.obstacle? = none) ∧
        refused.obstacle? = some error := by
    simp only [Outcome.mapM_eq_error_iff, exists_declaredLength_iff, declaredLength_eq_error_iff]
  rw [← firstPass]
  unfold appendAll
  cases extensions.mapM declaredLength with
  | error cause => simp [and_comm, eq_comm]
  | ok lengths => simp

/-- Putting a list behind other bytes comes to the same as writing it by itself. -/
theorem appendAll_eq_packAll (front : List UInt8) (extensions : List Extension) :
    appendAll front extensions =
      match packAll extensions with
      | .ok bytes => (.ok (), front ++ bytes)
      | .error error => (.error error, front) := by
  cases packed : packAll extensions with
  | ok bytes =>
      rcases packAll_eq_ok_iff.mp packed with ⟨writable, rfl⟩
      exact appendAll_eq_ok_iff.mpr ⟨writable, rfl⟩
  | error error =>
      rcases List.findSome?_eq_some_iff.mp (packAll_eq_error_iff.mp packed) with
        ⟨before, refused, after, rfl, obstructed, clear⟩
      exact appendAll_eq_error_iff.mpr ⟨rfl, before, refused, after, rfl, clear, obstructed⟩

/-- A list is put behind other bytes as a whole or not at all.  It is, just if every extension has
an entry; then each is written with its code, the true length of its value in two bytes and its
value.  Otherwise the bytes stay as they are, and the first extension without an entry says why,
whatever comes after it. -/
theorem appendAll_all_or_nothing (front : List UInt8) (extensions : List Extension) :
    (∀ bytes, appendAll front extensions = (.ok (), bytes) ↔
      (∀ extension ∈ extensions, extension.Writable) ∧
        bytes = front ++ extensions.flatMap fun extension =>
          littleEndian 2 extension.code.toNat ++ littleEndian 2 extension.write.length ++
            extension.write) ∧
    (∀ extension : Extension, extension.Writable →
      ofLittleEndian (littleEndian 2 extension.write.length) = extension.write.length) ∧
    (∀ error bytes, appendAll front extensions = (.error error, bytes) ↔
      bytes = front ∧ ∃ before refused after, extensions = before ++ refused :: after ∧
        (∀ extension ∈ before, extension.Writable) ∧ Obstructed refused error) := by
  refine ⟨?written, ?declared, ?refused⟩
  case written =>
    intro bytes
    simp only [← obstacle?_eq_none_iff_writable]
    exact appendAll_eq_ok_iff
  case declared =>
    intro extension writable
    have small : extension.write.length < limit 2 := by
      rw [extension.length_write]
      exact Nat.lt_succ_of_le writable.size_le
    rw [ofLittleEndian_littleEndian, Nat.mod_eq_of_lt small]
  case refused =>
    intro error bytes
    simp only [← obstacle?_eq_none_iff_writable, ← obstacle?_eq_some_iff]
    exact appendAll_eq_error_iff

/-- Of two extensions without an entry, the first one is reported. -/
theorem appendAll_disguised_then_reserved :
    appendAll [7] [.typed .cpiGuard ⟨true⟩, .unparsed 777 [5, 6]] =
      (.ok (), [7, 11, 0, 1, 0, 1, 9, 3, 2, 0, 5, 6]) ∧
    appendAll [7] [.typed .cpiGuard ⟨true⟩, .unparsed 3 [9], .unparsed 0 []] =
      (.error (.unparsedKnownExtensionType .mintCloseAuthority), [7]) ∧
    ofLittleEndian (littleEndian 2 (Extension.write (.unparsed 777 [5, 6])).length) = 2 := by
  have guard : Writable (.typed .cpiGuard ⟨true⟩) := obstacle?_eq_none_iff_writable.mp rfl
  have raw : Writable (.unparsed 777 [5, 6]) := obstacle?_eq_none_iff_writable.mp rfl
  refine ⟨?written, ?refused, ?declared⟩
  case written =>
    apply ((appendAll_all_or_nothing [7] _).1 _).mpr
    refine ⟨?_, rfl⟩
    intro extension member
    rcases List.mem_pair.mp member with rfl | rfl
    · exact guard
    · exact raw
  case refused =>
    apply ((appendAll_all_or_nothing [7] _).2.2 _ _).mpr
    refine ⟨rfl, [.typed .cpiGuard ⟨true⟩], .unparsed 3 [9], [.unparsed 0 []], rfl, ?_, ?_⟩
    · intro extension member
      rcases List.mem_singleton.mp member with rfl
      exact guard
    · exact .disguised .mintCloseAuthority [9]
  case declared => exact (appendAll_all_or_nothing [7] []).2.1 _ raw

end Extension

end TokenAccounts
