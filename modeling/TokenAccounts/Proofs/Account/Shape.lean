import TokenAccounts.Proofs.Account.RoundTrip

/-!
# Telling accounts apart

Nothing in the data of an account names its shape but its length and, behind the base record, one
tag.  Main statement: no data opens as accounts of two shapes, however it is looked at, and what is
written of an account opens as an account of its own kind alone.
-/

namespace TokenAccounts

/-- What data may be the data of. -/
inductive AccountShape where
  | extensible (kind : AccountKind)
  | multisig
  deriving DecidableEq, Repr

namespace AccountKind

/-- What differs between the two kinds tells them apart. -/
theorem eq_of_apart {α : Type} (feature : AccountKind → α)
    (apart : feature .mint ≠ feature .token) {left right : AccountKind}
    (same : feature left = feature right) : left = right := by
  cases left with
  | mint =>
      cases right with
      | mint => rfl
      | token => exact absurd same apart
  | token =>
      cases right with
      | mint => exact absurd same.symm apart
      | token => rfl

theorem baseLength_injective {left right : AccountKind}
    (same : left.baseLength = right.baseLength) : left = right :=
  eq_of_apart baseLength (by decide) same

theorem type_code_injective {left right : AccountKind}
    (same : left.type.code = right.type.code) : left = right :=
  eq_of_apart (fun kind => kind.type.code) (by decide) same

end AccountKind

namespace Account

open AccountLayout

variable {kind other : AccountKind} {data : List UInt8}

/-! ## Data that passes the check -/

/-- Whether data is a bare base record or the frame of an extended account. -/
def Framed (kind : AccountKind) (data : List UInt8) : Prop :=
  data.length = kind.baseLength ∨ Extended kind data

theorem check_eq_ok_iff : check kind data = .ok () ↔ Framed kind data := by
  constructor
  · intro checked
    rcases framed_or_misframed kind data with bare | extended | ⟨error, misframed⟩
    · exact .inl bare
    · exact .inr extended
    · rw [check_of_misframed misframed] at checked
      cases checked
  · intro framed
    cases framed with
    | inl bare => exact check_of_bare bare
    | inr extended => exact check_of_extended extended

theorem Framed.length_ne (framed : Framed kind data) : data.length ≠ Multisig.length := by
  cases framed with
  | inl bare =>
      rw [bare]
      exact Nat.ne_of_lt kind.baseLength_lt_multisig
  | inr extended => exact extended.length_ne

/-- The frame of an extended account is longer than any base record. -/
theorem Extended.length_ne_baseLength (extended : Extended kind data) (other : AccountKind) :
    data.length ≠ other.baseLength := by
  have short := other.baseLength_le_tagIndex
  have long := extended.entriesStart_le
  exact Nat.ne_of_gt (Nat.lt_of_lt_of_le (Nat.lt_succ_of_le short) long)

/-- Base records differ in their lengths, and frames in their tags. -/
theorem Framed.kind_unique (framed : Framed kind data) (otherFramed : Framed other data) :
    kind = other := by
  cases framed with
  | inl bare =>
      cases otherFramed with
      | inl otherBare => exact AccountKind.baseLength_injective (bare.symm.trans otherBare)
      | inr otherExtended => exact absurd bare (otherExtended.length_ne_baseLength kind)
  | inr extended =>
      cases otherFramed with
      | inl otherBare => exact absurd otherBare (extended.length_ne_baseLength other)
      | inr otherExtended =>
          apply AccountKind.type_code_injective
          exact Option.some.inj (extended.tag_eq.symm.trans otherExtended.tag_eq)

/-! ## Ways to open an account -/

/-- Whether data opens as an account of a shape: it is read as one, or an extension of one is found
in it. -/
inductive Opens (data : List UInt8) : AccountShape → Prop where
  | unpacked {kind : AccountKind} {account : Account kind}
      (unpacked : unpack kind data = .ok account) : Opens data (.extensible kind)
  | found {kind : AccountKind} {type : ExtensionType} {bytes : List UInt8}
      (found : findBytes kind data type = .ok bytes) : Opens data (.extensible kind)
  | multisig {multisig : Multisig} (unpacked : Multisig.unpack data = .ok multisig) :
      Opens data .multisig

theorem framed_of_opens (opens : Opens data (.extensible kind)) : Framed kind data := by
  apply check_eq_ok_iff.mp
  cases opens with
  | unpacked unpacked =>
      rcases Outcome.bind_eq_ok_iff.mp unpacked with ⟨_, checked, -⟩
      exact checked
  | found found =>
      rcases Outcome.bind_eq_ok_iff.mp found with ⟨_, -, checkedFound⟩
      rcases Outcome.bind_eq_ok_iff.mp checkedFound with ⟨_, checked, -⟩
      exact checked

theorem length_of_opens_multisig (opens : Opens data .multisig) :
    data.length = Multisig.length := by
  cases opens with
  | multisig unpacked =>
      unfold Multisig.unpack at unpacked
      split at unpacked
      · assumption
      · cases unpacked

/-- No data opens as accounts of two shapes. -/
theorem Opens.unique {left right : AccountShape} (opens : Opens data left)
    (otherOpens : Opens data right) : left = right := by
  cases left with
  | extensible kind =>
      have framed := framed_of_opens opens
      cases right with
      | extensible other => rw [framed.kind_unique (framed_of_opens otherOpens)]
      | multisig => exact absurd (length_of_opens_multisig otherOpens) framed.length_ne
  | multisig =>
      cases right with
      | extensible kind =>
          exact absurd (length_of_opens_multisig opens) (framed_of_opens otherOpens).length_ne
      | multisig => rfl

/-- Accounts of one shape are not taken for those of another.  No data opens as accounts of two
shapes; and what is written of an account opens as an account of its kind, and so as no other. -/
theorem opens_as_one_shape (data : List UInt8) :
    (∀ left right, Opens data left → Opens data right → left = right) ∧
    ∀ (kind : AccountKind) (account : Account kind), account.pack = .ok data →
      ∀ shape, Opens data shape ↔ shape = .extensible kind := by
  constructor
  · intro left right opens otherOpens
    exact opens.unique otherOpens
  · intro kind account packed shape
    have own : Opens data (.extensible kind) := .unpacked (unpack_of_pack packed)
    constructor
    · intro opens
      exact opens.unique own
    · intro same
      subst same
      exact own

/-- A mint that is nearly as long as a multisignature account opens as a mint alone. -/
theorem opens_crowdedMint :
    ∃ bytes, crowdedMint.pack = .ok bytes ∧ Opens bytes (.extensible .mint) ∧
      ¬ Opens bytes (.extensible .token) ∧ ¬ Opens bytes .multisig := by
  obtain ⟨bytes, packed⟩ : ∃ bytes, crowdedMint.pack = .ok bytes :=
    ⟨_, pack_eq_ok_iff.mpr ⟨by decide +kernel, rfl⟩⟩
  obtain ⟨apart, written⟩ := opens_as_one_shape bytes
  have own := (written .mint crowdedMint packed _).mpr rfl
  refine ⟨bytes, packed, own, ?_, ?_⟩
  · intro opens
    cases apart _ _ own opens
  · intro opens
    cases apart _ _ own opens

end Account

end TokenAccounts
