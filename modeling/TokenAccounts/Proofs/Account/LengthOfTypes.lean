import Mathlib.Algebra.BigOperators.Group.Finset.Basic
import TokenAccounts.Proofs.Account.Length
import TokenAccounts.Proofs.Account.Lookup

/-!
# Account lengths from types

The length of an account can be known before there are any values to put in it, from the types of
its extensions, if they belong to the account and all values of each are equally long.  The order of
the types and repetitions are of no account.  Main statement: the length from types is that of every
account with one value of each type, and a list of types is refused for the first that has no place
in an account or no length of its own.
-/

namespace TokenAccounts

namespace AccountLayout

variable {kind : AccountKind} {type : ExtensionType} {seen types before after : List ExtensionType}
variable {extensions : List Extension} {error : Error}

/-- Whether a type belongs to accounts of a kind and all its values are equally long. -/
def Sizable (kind : AccountKind) (type : ExtensionType) : Prop :=
  type.accountType = kind.type ∧ ∃ length, type.fixedLength? = some length

/-- Why a type has no length in accounts of a kind. -/
inductive Unsizable (kind : AccountKind) (type : ExtensionType) : Error → Prop
  | foreign (foreign : type.accountType ≠ kind.type) :
      Unsizable kind type (.invalidExtensionAccountType type kind.type)
  | uneven (belongs : type.accountType = kind.type) (uneven : type.fixedLength? = none) :
      Unsizable kind type (.variableSizeExtension type)

/-- The length of the entry of an extension of a type, if all are equally long. -/
def entrySize (type : ExtensionType) : Nat := Entry.headerLength + type.fixedLength?.getD 0

/-- Whether a list of extensions has one value of each of some types, in any order, and nothing
else. -/
structure OneOfEach (types : List ExtensionType) (extensions : List Extension) : Prop where
  typed : ∀ extension ∈ extensions, ∃ held value, extension = .typed held value
  types_perm : (extensions.map Extension.type?).Perm (types.dedup.map some)

/-! ## One type -/

theorem Unsizable.not_sizable (unsizable : Unsizable kind type error) : ¬ Sizable kind type := by
  rintro ⟨belongs, length, fixed⟩
  cases unsizable with
  | foreign foreign => exact foreign belongs
  | uneven _ uneven =>
      rw [uneven] at fixed
      cases fixed

theorem sizable_or_unsizable (kind : AccountKind) (type : ExtensionType) :
    Sizable kind type ∨ ∃ error, Unsizable kind type error := by
  by_cases belongs : type.accountType = kind.type
  · cases fixed : type.fixedLength? with
    | none => exact .inr ⟨_, .uneven belongs fixed⟩
    | some length => exact .inl ⟨belongs, length, fixed⟩
  · exact .inr ⟨_, .foreign belongs⟩

theorem entryLength_of_sizable (sizable : Sizable kind type) :
    entryLength type = .ok (entrySize type) := by
  rcases sizable with ⟨-, length, fixed⟩
  rw [entryLength, entrySize, fixed]
  rfl

theorem addedLength_of_sizable (sizable : Sizable kind type) (seen : List ExtensionType) :
    addedLength seen type = .ok (if type ∈ seen then 0 else entrySize type) := by
  rw [addedLength, entryLength_of_sizable sizable]
  split <;> rfl

/-! ## The entries of several types -/

/-- The first type of a list takes room if it was not seen before. -/
theorem sum_entrySize_cons (seen types : List ExtensionType) (type : ExtensionType) :
    ∑ other ∈ (type :: types).toFinset \ seen.toFinset, entrySize other =
      (if type ∈ seen then 0 else entrySize type) +
        ∑ other ∈ types.toFinset \ (type :: seen).toFinset, entrySize other := by
  rw [List.toFinset_cons, List.toFinset_cons]
  split
  · next again =>
      have member : type ∈ seen.toFinset := List.mem_toFinset.mpr again
      rw [Finset.insert_sdiff_of_mem _ member, Finset.insert_eq_of_mem member, Nat.zero_add]
  · next fresh =>
      have notMember : type ∉ seen.toFinset := fun member => fresh (List.mem_toFinset.mp member)
      rw [Finset.insert_sdiff_of_notMem _ notMember, Finset.sdiff_insert,
        ← Finset.erase_insert_eq_erase,
        Finset.add_sum_erase _ _ (Finset.mem_insert_self type _)]

/-- Of types that are sizable, each that was not seen before takes its room once. -/
theorem entriesLength_of_sizable (sizable : ∀ type ∈ types, Sizable kind type)
    (seen : List ExtensionType) :
    entriesLength kind seen types =
      .ok (∑ type ∈ types.toFinset \ seen.toFinset, entrySize type) := by
  induction types generalizing seen with
  | nil => simp [entriesLength, pure, Except.pure]
  | cons type types ih =>
      rcases List.forall_mem_cons.mp sizable with ⟨first, others⟩
      have belongs : checkBelongs kind type = .ok () :=
        Account.checkBelongs_eq_ok_iff.mpr first.1
      rw [entriesLength, belongs, Outcome.ok_bind, addedLength_of_sizable first,
        Outcome.ok_bind, ih others, Outcome.ok_bind, sum_entrySize_cons]
      rfl

/-- Types are refused for the first that is not sizable. -/
theorem entriesLength_of_unsizable (seenSizable : ∀ type ∈ seen, Sizable kind type)
    (sizable : ∀ type ∈ before, Sizable kind type) (unsizable : Unsizable kind type error) :
    entriesLength kind seen (before ++ type :: after) = .error error := by
  induction before generalizing seen with
  | nil =>
      have fresh : type ∉ seen := fun again => unsizable.not_sizable (seenSizable type again)
      rw [List.nil_append, entriesLength, addedLength, if_neg fresh]
      cases unsizable with
      | foreign foreign =>
          rw [checkBelongs, if_neg foreign]
          rfl
      | uneven belongs uneven =>
          rw [checkBelongs, if_pos belongs, entryLength, uneven]
          rfl
  | cons earlier before ih =>
      rcases List.forall_mem_cons.mp sizable with ⟨first, others⟩
      have belongs : checkBelongs kind earlier = .ok () :=
        Account.checkBelongs_eq_ok_iff.mpr first.1
      have later : entriesLength kind (earlier :: seen) (before ++ type :: after) =
          .error error := ih (List.forall_mem_cons.mpr ⟨first, seenSizable⟩) others
      rw [List.cons_append, entriesLength, belongs, Outcome.ok_bind,
        addedLength_of_sizable first, Outcome.ok_bind, later]
      rfl

/-- All types of a list are sizable, or there is a first that is not. -/
theorem sizable_or_exists_unsizable (kind : AccountKind) (types : List ExtensionType) :
    (∀ type ∈ types, Sizable kind type) ∨
      ∃ before type after error, types = before ++ type :: after ∧
        (∀ earlier ∈ before, Sizable kind earlier) ∧ Unsizable kind type error := by
  induction types with
  | nil => exact .inl (by simp)
  | cons type types ih =>
      rcases sizable_or_unsizable kind type with first | ⟨error, unsizable⟩
      · rcases ih with others | ⟨before, later, after, error, rfl, sizable, unsizable⟩
        · exact .inl (List.forall_mem_cons.mpr ⟨first, others⟩)
        · exact .inr ⟨type :: before, later, after, error, rfl,
            List.forall_mem_cons.mpr ⟨first, sizable⟩, unsizable⟩
      · exact .inr ⟨[], type, types, error, rfl, by simp, unsizable⟩

/-! ## The account -/

theorem lengthOfTypes_of_sizable (nonempty : types ≠ [])
    (sizable : ∀ type ∈ types, Sizable kind type) :
    lengthOfTypes kind types =
      .ok (avoidMultisig (entriesStart + ∑ type ∈ types.toFinset, entrySize type)) := by
  rw [lengthOfTypes, if_neg (by simpa using nonempty), entriesLength_of_sizable sizable,
    List.toFinset_nil, Finset.sdiff_empty]
  rfl

theorem lengthOfTypes_of_unsizable (sizable : ∀ earlier ∈ before, Sizable kind earlier)
    (unsizable : Unsizable kind type error) :
    lengthOfTypes kind (before ++ type :: after) = .error error := by
  have none : ∀ type ∈ ([] : List ExtensionType), Sizable kind type := by simp
  rw [lengthOfTypes, if_neg (by simp), entriesLength_of_unsizable none sizable unsizable]
  rfl

/-- Types have a length just if all are sizable. -/
theorem exists_lengthOfTypes_iff :
    (∃ length, lengthOfTypes kind types = .ok length) ↔ ∀ type ∈ types, Sizable kind type := by
  constructor
  · rintro ⟨length, known⟩
    rcases sizable_or_exists_unsizable kind types with
      sizable | ⟨before, type, after, error, rfl, sizable, unsizable⟩
    · exact sizable
    · rw [lengthOfTypes_of_unsizable sizable unsizable] at known
      cases known
  · intro sizable
    by_cases empty : types = []
    · subst empty
      exact ⟨kind.baseLength, rfl⟩
    · exact ⟨_, lengthOfTypes_of_sizable empty sizable⟩

theorem lengthOfTypes_eq_error_iff :
    lengthOfTypes kind types = .error error ↔
      ∃ before type after, types = before ++ type :: after ∧
        (∀ earlier ∈ before, Sizable kind earlier) ∧ Unsizable kind type error := by
  constructor
  · intro refused
    rcases sizable_or_exists_unsizable kind types with
      sizable | ⟨before, type, after, cause, rfl, sizable, unsizable⟩
    · rcases exists_lengthOfTypes_iff.mpr sizable with ⟨length, known⟩
      rw [known] at refused
      cases refused
    · rw [lengthOfTypes_of_unsizable sizable unsizable] at refused
      cases refused
      exact ⟨before, type, after, rfl, sizable, unsizable⟩
  · rintro ⟨before, type, after, rfl, sizable, unsizable⟩
    exact lengthOfTypes_of_unsizable sizable unsizable

theorem lengthOfTypes_eq_ok_iff (nonempty : types ≠ []) {length : Nat} :
    lengthOfTypes kind types = .ok length ↔
      (∀ type ∈ types, Sizable kind type) ∧
        length = avoidMultisig (entriesStart + ∑ type ∈ types.toFinset, entrySize type) := by
  constructor
  · intro known
    have sizable := exists_lengthOfTypes_iff.mp ⟨length, known⟩
    rw [lengthOfTypes_of_sizable nonempty sizable] at known
    cases known
    exact ⟨sizable, rfl⟩
  · rintro ⟨sizable, rfl⟩
    exact lengthOfTypes_of_sizable nonempty sizable

/-- Neither the order of types nor repetitions change their length. -/
theorem lengthOfTypes_of_same {others : List ExtensionType} {length : Nat}
    (same : ∀ type, type ∈ others ↔ type ∈ types) (known : lengthOfTypes kind types = .ok length) :
    lengthOfTypes kind others = .ok length := by
  by_cases empty : types = []
  · subst empty
    have noOthers : others = [] := List.eq_nil_iff_forall_not_mem.mpr fun type member => by
      cases (same type).mp member
    rw [noOthers]
    exact known
  · rcases List.exists_mem_of_ne_nil types empty with ⟨type, member⟩
    have someOthers : others ≠ [] := List.ne_nil_of_mem ((same type).mpr member)
    rcases (lengthOfTypes_eq_ok_iff empty).mp known with ⟨sizable, rfl⟩
    have sets : others.toFinset = types.toFinset := by
      ext type
      rw [List.mem_toFinset, List.mem_toFinset, same]
    rw [← sets, lengthOfTypes_eq_ok_iff someOthers]
    exact ⟨fun type member => sizable type ((same type).mp member), rfl⟩

theorem lengthOfTypes_ne_multisig {length : Nat} (known : lengthOfTypes kind types = .ok length) :
    length ≠ Multisig.length := by
  by_cases empty : types = []
  · subst empty
    cases known
    exact Nat.ne_of_lt kind.baseLength_lt_multisig
  · rw [((lengthOfTypes_eq_ok_iff empty).mp known).2]
    exact Account.avoidMultisig_ne _

/-! ## Values of the types -/

/-- A value is as long as its type says. -/
theorem size_of_type? {extension : Extension} (sizable : Sizable kind type)
    (typed : ∃ held value, extension = .typed held value) (known : extension.type? = some type) :
    Entry.headerLength + extension.size = entrySize type := by
  rcases typed with ⟨held, value, rfl⟩
  have same : type = .holding held :=
    (Option.some.inj (known.symm.trans (ExtensionType.ofCode?_code (.holding held))))
  subst same
  rcases sizable.2 with ⟨length, fixed⟩
  have fixedOfKind : held.fixedLength? = some length := fixed
  simp [entrySize, Extension.size, ExtensionKind.size, ExtensionType.fixedLength?, fixedOfKind]

/-- An extension of a list with one value of each type is of one of the types. -/
theorem OneOfEach.exists_type (each : OneOfEach types extensions) {extension : Extension}
    (member : extension ∈ extensions) : ∃ type ∈ types, extension.type? = some type := by
  have known : extension.type? ∈ types.dedup.map some :=
    each.types_perm.mem_iff.mp (List.mem_map_of_mem member)
  rcases List.mem_map.mp known with ⟨type, listed, same⟩
  exact ⟨type, List.mem_dedup.mp listed, same.symm⟩

/-- Values of sizable types can be written. -/
theorem OneOfEach.obstacle?_eq_none (each : OneOfEach types extensions)
    (sizable : ∀ type ∈ types, Sizable kind type) :
    ∀ extension ∈ extensions, extension.obstacle? = none := by
  intro extension member
  rcases each.exists_type member with ⟨type, listed, known⟩
  rcases each.typed extension member with ⟨held, value, rfl⟩
  apply Extension.obstacle?_typed_of_ne
  intro metadata
  subst metadata
  cases known
  rcases (sizable _ listed).2 with ⟨length, fixed⟩
  cases fixed

/-- Values of sizable types, one of each, take the room of their types. -/
theorem OneOfEach.totalSize_eq (each : OneOfEach types extensions)
    (sizable : ∀ type ∈ types, Sizable kind type) :
    Extension.totalSize extensions = ∑ type ∈ types.toFinset, entrySize type := by
  have size (extension) (member : extension ∈ extensions) :
      Entry.headerLength + extension.size = extension.type?.elim 0 entrySize := by
    rcases each.exists_type member with ⟨type, listed, known⟩
    rw [known]
    exact size_of_type? (sizable type listed) (each.typed extension member) known
  calc Extension.totalSize extensions
      = (extensions.map fun extension => Entry.headerLength + extension.size).sum :=
        Extension.totalSize_eq_sum extensions
    _ = ((extensions.map Extension.type?).map (·.elim 0 entrySize)).sum := by
        rw [List.map_map]
        exact congrArg List.sum (List.map_congr_left size)
    _ = ((types.dedup.map some).map (·.elim 0 entrySize)).sum :=
        (each.types_perm.map _).sum_eq
    _ = (types.dedup.map entrySize).sum := by
        rw [List.map_map]
        rfl
    _ = ∑ type ∈ types.dedup.toFinset, entrySize type :=
        (List.sum_toFinset entrySize types.nodup_dedup).symm
    _ = ∑ type ∈ types.toFinset, entrySize type := by
        congr 1
        ext type
        simp

/-- The length of an account from the types of its extensions is that of the account.  Types have a
length just if each belongs to the account and all its values are equally long; else they are
refused for the first that is foreign or uneven.  Without types it is the length of the base record,
which is that of an account without a list.  Otherwise it is the length of the list, and of the
account as it is written, for any one value of each of the types in any order.  It stays the same
where types are permuted or repeated, and is never the length of a multisignature account. -/
theorem lengthOfTypes_agrees_with_values (kind : AccountKind) (types : List ExtensionType) :
    ((∃ length, lengthOfTypes kind types = .ok length) ↔ ∀ type ∈ types, Sizable kind type) ∧
    (∀ error, lengthOfTypes kind types = .error error ↔
      ∃ before type after, types = before ++ type :: after ∧
        (∀ earlier ∈ before, Sizable kind earlier) ∧ Unsizable kind type error) ∧
    (types = [] → lengthOfTypes kind types = .ok kind.baseLength ∧
      AccountLayout.length kind none = kind.baseLength) ∧
    (∀ length, types ≠ [] → lengthOfTypes kind types = .ok length →
      ∀ extensions, OneOfEach types extensions →
        AccountLayout.length kind (some extensions) = length ∧
        ∀ base, ∃ bytes, (⟨base, some extensions⟩ : Account kind).pack = .ok bytes ∧
          bytes.length = length) ∧
    ∀ length, lengthOfTypes kind types = .ok length →
      (∀ others : List ExtensionType, (∀ type, type ∈ others ↔ type ∈ types) →
        lengthOfTypes kind others = .ok length) ∧
      length ≠ 355 := by
  refine ⟨exists_lengthOfTypes_iff, fun error => lengthOfTypes_eq_error_iff, ?empty, ?values,
    fun length known => ⟨fun others same => lengthOfTypes_of_same same known,
      lengthOfTypes_ne_multisig known⟩⟩
  case empty =>
    intro empty
    subst empty
    exact ⟨rfl, rfl⟩
  case values =>
    intro length nonempty known extensions each
    rcases (lengthOfTypes_eq_ok_iff nonempty).mp known with ⟨sizable, rfl⟩
    have size : AccountLayout.length kind (some extensions) =
        avoidMultisig (entriesStart + ∑ type ∈ types.toFinset, entrySize type) := by
      rw [AccountLayout.length, each.totalSize_eq sizable]
    refine ⟨size, ?_⟩
    intro base
    have writable := each.obstacle?_eq_none sizable
    have packed : (⟨base, some extensions⟩ : Account kind).pack = .ok _ :=
      Account.pack_eq_ok_iff.mpr ⟨writable, rfl⟩
    exact ⟨_, packed, (Account.length_of_pack packed).trans size⟩

/-- Types that would make a mint as long as a multisignature account, one of them twice. -/
def crowdedTypes : List ExtensionType :=
  [.holding .pausable, .holding .transferFeeConfig, .holding .nonTransferable, .holding .pausable,
    .holding .mintCloseAuthority]

/-- A value of each, in another order. -/
def crowd : List Extension :=
  [.typed .mintCloseAuthority ⟨none⟩, .typed .nonTransferable ⟨⟩, .typed .pausable ⟨none, false⟩,
    .typed .transferFeeConfig ⟨none, none, 0, ⟨0, 0, 0⟩, ⟨0, 0, 0⟩⟩]

/-- A mint with these values is two bytes longer than a multisignature account, as the types say in
any order.  Metadata is of no fixed length, and is refused in front of what is of no mint. -/
theorem lengthOfTypes_crowdedTypes :
    crowdedTypes ≠ [] ∧ lengthOfTypes .mint crowdedTypes = .ok 357 ∧ OneOfEach crowdedTypes crowd ∧
    (∃ bytes, (⟨⟨none, 0, 2, true, none⟩, some crowd⟩ : MintAccount).pack = .ok bytes ∧
      bytes.length = 357) ∧
    lengthOfTypes .mint crowdedTypes.reverse = .ok 357 ∧
    lengthOfTypes .mint [.holding .pausable, .holding .tokenMetadata, .holding .cpiGuard] =
      .error (.variableSizeExtension (.holding .tokenMetadata)) := by
  have known : lengthOfTypes .mint crowdedTypes = .ok 357 := by decide
  have each : OneOfEach crowdedTypes crowd := by
    refine ⟨?_, by decide⟩
    simp only [crowd, List.forall_mem_cons]
    exact ⟨⟨_, _, rfl⟩, ⟨_, _, rfl⟩, ⟨_, _, rfl⟩, ⟨_, _, rfl⟩, by simp⟩
  rcases lengthOfTypes_agrees_with_values .mint crowdedTypes with ⟨-, -, -, values, stable⟩
  refine ⟨by decide, known, each, (values 357 (by decide) known crowd each).2 _,
    (stable 357 known).1 _ fun type => List.mem_reverse, ?_⟩
  rcases lengthOfTypes_agrees_with_values .mint
    [.holding .pausable, .holding .tokenMetadata, .holding .cpiGuard] with ⟨-, refused, -⟩
  refine (refused _).mpr ⟨[.holding .pausable], .holding .tokenMetadata, [.holding .cpiGuard], rfl,
    ?_, .uneven rfl rfl⟩
  intro earlier member
  rw [List.mem_singleton.mp member]
  exact ⟨rfl, 33, rfl⟩

end AccountLayout

end TokenAccounts
