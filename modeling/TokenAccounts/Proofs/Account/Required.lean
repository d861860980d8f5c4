import TokenAccounts.Extension.Required
import TokenAccounts.Proofs.Account.LengthOfTypes

/-!
# Extensions that every account of a mint has to carry

What the extensions of a mint ask of its accounts is gathered in one pass over their types.  Main
statement: the pass gathers what is asked for and nothing else, each extension once and in the order
in which it is first asked for, and a token account can carry all of it, with a length that is known
from the types.
-/

namespace TokenAccounts

variable {types more : List ExtensionType} {type first second : ExtensionType}
variable {required : List ExtensionKind} {kind earlier later : ExtensionKind}

/-- Which extension of a mint asks for which extension of its accounts. -/
inductive Requires : ExtensionType → ExtensionKind → Prop
  | transferFee : Requires (.holding .transferFeeConfig) .transferFeeAmount
  | nonTransferable : Requires (.holding .nonTransferable) .nonTransferableAccount
  | transferHook : Requires (.holding .transferHook) .transferHookAccount
  | pausable : Requires (.holding .pausable) .pausableAccount
  | permissionedBurn : Requires (.holding .permissionedBurn) .permissionedBurnAccount

namespace Requires

theorem requiredOfAccount?_eq (requires : Requires type kind) :
    type.kind?.bind ExtensionKind.requiredOfAccount? = some kind := by
  cases requires <;> rfl

theorem of_requiredOfAccount?
    (found : type.kind?.bind ExtensionKind.requiredOfAccount? = some kind) :
    Requires type kind := by
  cases type with
  | uninitialized => cases found
  | holding source => cases source <;> cases found <;> constructor

/-- An extension of an account is asked for by one extension of a mint only. -/
theorem unique (left : Requires first kind) (right : Requires second kind) : first = second := by
  cases left <;> cases right <;> rfl

theorem iff_eq {asked : ExtensionKind} (requires : Requires type asked) :
    Requires type kind ↔ kind = asked := by
  constructor
  · intro other
    exact Option.some.inj (other.requiredOfAccount?_eq.symm.trans requires.requiredOfAccount?_eq)
  · intro same
    exact same ▸ requires

/-- Token accounts can carry what is asked of them, and all values of it are equally long. -/
theorem sizable (requires : Requires type kind) :
    AccountLayout.Sizable .token (.holding kind) := by
  cases requires <;> exact ⟨rfl, _, rfl⟩

end Requires

/-! ## One more type -/

/-- One more type either asks for nothing new, or for an extension that is put at the end. -/
theorem takeUp_cases (required : List ExtensionKind) (type : ExtensionType) :
    ((∀ kind, Requires type kind → kind ∈ required) ∧ takeUp required type = required) ∨
      ∃ kind, Requires type kind ∧ kind ∉ required ∧ takeUp required type = required ++ [kind] := by
  rw [takeUp]
  cases asked : type.kind?.bind ExtensionKind.requiredOfAccount? with
  | none =>
      left
      constructor
      · intro kind requires
        rw [requires.requiredOfAccount?_eq] at asked
        cases asked
      · rfl
  | some kind =>
      have requires := Requires.of_requiredOfAccount? asked
      by_cases known : kind ∈ required
      · left
        constructor
        · intro other otherRequires
          rw [otherRequires.requiredOfAccount?_eq] at asked
          cases asked
          exact known
        · exact if_pos known
      · right
        exact ⟨kind, requires, known, if_neg known⟩

/-- A type that asks for nothing new changes nothing. -/
theorem takeUp_of_known (known : ∀ kind, Requires type kind → kind ∈ required) :
    takeUp required type = required := by
  rcases takeUp_cases required type with ⟨_, same⟩ | ⟨kind, requires, fresh, _⟩
  · exact same
  · exact absurd (known kind requires) fresh

theorem mem_takeUp_iff : kind ∈ takeUp required type ↔ kind ∈ required ∨ Requires type kind := by
  rcases takeUp_cases required type with ⟨known, same⟩ | ⟨found, requires, _, extended⟩
  · rw [same]
    exact (or_iff_left_of_imp (known kind)).symm
  · rw [extended, List.mem_append, List.mem_singleton, requires.iff_eq]

/-! ## The whole pass -/

theorem requiredOfAccount_concat (types : List ExtensionType) (type : ExtensionType) :
    requiredOfAccount (types ++ [type]) = takeUp (requiredOfAccount types) type := by
  rw [requiredOfAccount, List.foldl_append]
  rfl

/-- What is required is what some type asks for. -/
theorem mem_requiredOfAccount_iff :
    kind ∈ requiredOfAccount types ↔ ∃ type ∈ types, Requires type kind := by
  induction types using List.reverseRecOn with
  | nil => simp [requiredOfAccount]
  | append_singleton types type ih =>
      rw [requiredOfAccount_concat, mem_takeUp_iff, ih]
      simp only [List.mem_append, List.mem_singleton, or_and_right, exists_or, exists_eq_left]

/-- Types that were looked at before ask for nothing new. -/
theorem requiredOfAccount_append (known : ∀ type ∈ more, type ∈ types) :
    requiredOfAccount (types ++ more) = requiredOfAccount types := by
  induction more using List.reverseRecOn with
  | nil => rw [List.append_nil]
  | append_singleton more type ih =>
      have before := ih fun other member => known other (List.mem_append_left _ member)
      have again : type ∈ types := known type (List.mem_append_right _ (List.mem_singleton_self _))
      rw [← List.append_assoc, requiredOfAccount_concat, before]
      apply takeUp_of_known
      intro kind requires
      exact mem_requiredOfAccount_iff.mpr ⟨type, again, requires⟩

/-- Whether of two required extensions the first is asked for before the second. -/
def AskedBefore (types : List ExtensionType) (earlier later : ExtensionKind) : Prop :=
  ∀ first second, Requires first earlier → Requires second later →
    types.idxOf first < types.idxOf second

/-- The type that asks for a required extension is one of those looked at. -/
theorem mem_of_requires (requires : Requires type kind) (member : kind ∈ requiredOfAccount types) :
    type ∈ types := by
  rcases mem_requiredOfAccount_iff.mp member with ⟨source, listed, asks⟩
  rw [requires.unique asks]
  exact listed

/-- Required extensions are in the order in which they are first asked for. -/
theorem pairwise_askedBefore (types : List ExtensionType) :
    (requiredOfAccount types).Pairwise (AskedBefore types) := by
  induction types using List.reverseRecOn with
  | nil => exact .nil
  | append_singleton types type ih =>
      -- What is required of the types before the last keeps its places.
      have kept : (requiredOfAccount types).Pairwise (AskedBefore (types ++ [type])) := by
        apply ih.imp_of_mem
        intro earlier later earlierMem laterMem before first second firstAsks secondAsks
        rw [List.idxOf_append_of_mem (mem_of_requires firstAsks earlierMem),
          List.idxOf_append_of_mem (mem_of_requires secondAsks laterMem)]
        exact before first second firstAsks secondAsks
      rw [requiredOfAccount_concat]
      rcases takeUp_cases (requiredOfAccount types) type with
        ⟨_, same⟩ | ⟨kind, requires, fresh, extended⟩
      · rw [same]
        exact kept
      · rw [extended, List.pairwise_append]
        refine ⟨kept, List.pairwise_singleton _ _, ?_⟩
        intro earlier earlierMem later laterMem first second firstAsks secondAsks
        rw [List.mem_singleton.mp laterMem] at secondAsks
        rw [secondAsks.unique requires]
        have listed : first ∈ types := mem_of_requires firstAsks earlierMem
        have absent : type ∉ types := by
          intro member
          exact fresh (mem_requiredOfAccount_iff.mpr ⟨type, member, requires⟩)
        rw [List.idxOf_append_of_mem listed, List.idxOf_append_of_notMem absent]
        exact Nat.lt_of_lt_of_le (List.idxOf_lt_length_of_mem listed) (Nat.le_add_right ..)

theorem nodup_requiredOfAccount (types : List ExtensionType) :
    (requiredOfAccount types).Nodup := by
  apply (pairwise_askedBefore types).imp_of_mem
  intro earlier later earlierMem _ before same
  subst same
  rcases mem_requiredOfAccount_iff.mp earlierMem with ⟨source, _, asks⟩
  exact Nat.lt_irrefl _ (before source source asks asks)

/-! ## The account -/

/-- Whether an account with these extensions carries one value of each of some kinds and nothing
else; without any kinds it has no list. -/
inductive Carries : List ExtensionKind → Option (List Extension) → Prop
  | nothing : Carries [] none
  | oneOfEach {kinds : List ExtensionKind} {extensions : List Extension} (nonempty : kinds ≠ [])
      (each : AccountLayout.OneOfEach (kinds.map .holding) extensions) :
      Carries kinds (some extensions)

open AccountLayout (Sizable lengthOfTypes lengthOfTypes_of_sizable exists_lengthOfTypes_iff)

theorem sizable_of_mem_requiredOfAccount (member : kind ∈ requiredOfAccount types) :
    Sizable .token (.holding kind) := by
  rcases mem_requiredOfAccount_iff.mp member with ⟨type, _, requires⟩
  exact requires.sizable

/-- The length from types is that of an account with values of them. -/
theorem lengthOfTypes_of_carries {kinds : List ExtensionKind} {account : Account .token}
    (sizable : ∀ kind ∈ kinds, Sizable .token (.holding kind))
    (carries : Carries kinds account.extensions) :
    lengthOfTypes .token (kinds.map .holding) = .ok account.size ∧
      ∃ bytes, account.pack = .ok bytes ∧ bytes.length = account.size := by
  have typesSizable : ∀ type ∈ kinds.map ExtensionType.holding, Sizable .token type :=
    List.forall_mem_map.mpr sizable
  rcases account with ⟨base, extensions⟩
  cases carries with
  | nothing =>
      have packed : (⟨base, none⟩ : Account .token).pack = .ok (Record.write base) := rfl
      exact ⟨rfl, _, packed, Account.length_of_pack packed⟩
  | oneOfEach nonempty each =>
      have someTypes : kinds.map ExtensionType.holding ≠ [] := mt List.map_eq_nil_iff.mp nonempty
      have packed : (⟨base, some _⟩ : Account .token).pack = .ok _ :=
        Account.pack_eq_ok_iff.mpr ⟨each.obstacle?_eq_none typesSizable, rfl⟩
      constructor
      · rw [lengthOfTypes_of_sizable someTypes typesSizable, ← each.totalSize_eq typesSizable]
        rfl
      · exact ⟨_, packed, Account.length_of_pack packed⟩

/-- What the extensions of a mint ask of its accounts is gathered once each, in the order in which
it is first asked for, and nothing else is; types that were there before add nothing.  All of it
belongs to token accounts and has a fixed length, so that its types have a length, which is that of
every token account that carries one value of each. -/
theorem required_extensions_form_account (types : List ExtensionType) :
    (requiredOfAccount types).Nodup ∧
    (∀ kind, kind ∈ requiredOfAccount types ↔ ∃ type ∈ types, Requires type kind) ∧
    (requiredOfAccount types).Pairwise (AskedBefore types) ∧
    (∀ more : List ExtensionType, (∀ type ∈ more, type ∈ types) →
      requiredOfAccount (types ++ more) = requiredOfAccount types) ∧
    (∀ kind ∈ requiredOfAccount types,
      kind.accountType = .account ∧ ∃ length, kind.fixedLength? = some length) ∧
    ∃ length, lengthOfTypes .token ((requiredOfAccount types).map .holding) = .ok length ∧
      ∀ account : Account .token, Carries (requiredOfAccount types) account.extensions →
        account.size = length ∧ ∃ bytes, account.pack = .ok bytes ∧ bytes.length = length := by
  have sizable : ∀ kind ∈ requiredOfAccount types, Sizable .token (.holding kind) :=
    fun kind => sizable_of_mem_requiredOfAccount
  refine ⟨nodup_requiredOfAccount types, fun kind => mem_requiredOfAccount_iff,
    pairwise_askedBefore types, fun more => requiredOfAccount_append, sizable, ?_⟩
  rcases exists_lengthOfTypes_iff.mpr (List.forall_mem_map.mpr sizable) with ⟨length, known⟩
  refine ⟨length, known, ?_⟩
  intro account carries
  rcases lengthOfTypes_of_carries sizable carries with ⟨same, packed⟩
  have equal : account.size = length := Except.ok.inj (same.symm.trans known)
  exact ⟨equal, equal ▸ packed⟩

/-- The types of a mint, some of which ask nothing of its accounts, and one of which stands there
twice. -/
def demandingTypes : List ExtensionType :=
  [.holding .pausable, .uninitialized, .holding .transferFeeConfig, .holding .tokenMetadata,
    .holding .pausable, .holding .nonTransferable]

/-- An account with the three marks that such a mint asks for, in another order. -/
def markedAccount : Account .token :=
  ⟨⟨.zero .address, .zero .address, 7, none, .initialized, none, 0, none⟩,
    some [.typed .transferFeeAmount ⟨3⟩, .typed .nonTransferableAccount ⟨⟩,
      .typed .pausableAccount ⟨⟩]⟩

theorem requiredOfAccount_demandingTypes :
    requiredOfAccount (demandingTypes ++ [.uninitialized, .holding .transferFeeConfig]) =
      [.pausableAccount, .transferFeeAmount, .nonTransferableAccount] ∧
    ∃ bytes, markedAccount.pack = .ok bytes ∧ bytes.length = 186 := by
  rcases required_extensions_form_account demandingTypes with
    ⟨-, -, -, stable, -, length, known, carried⟩
  have gathered : requiredOfAccount demandingTypes =
      [.pausableAccount, .transferFeeAmount, .nonTransferableAccount] := by decide
  have carries : Carries (requiredOfAccount demandingTypes) markedAccount.extensions := by
    rw [gathered]
    refine .oneOfEach (by decide) ⟨?_, by decide⟩
    simp only [List.forall_mem_cons]
    exact ⟨⟨_, _, rfl⟩, ⟨_, _, rfl⟩, ⟨_, _, rfl⟩, by simp⟩
  constructor
  · rw [stable _ (by decide), gathered]
  · have size : length = 186 := (carried markedAccount carries).1.symm
    exact size ▸ (carried markedAccount carries).2

end TokenAccounts
