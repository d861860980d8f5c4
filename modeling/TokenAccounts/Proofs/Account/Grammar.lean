import TokenAccounts.Proofs.Account.Frame

/-!
# Which data is an account

Account data is a base record alone, or a frame around entries and a tail that is no entry.  Main
statements: data is read as an account just if the grammar derives the account from it; data is
refused for the first check that fails; data divides into entries in one way only; and the tail
behind the entries makes no difference.
-/

namespace TokenAccounts

namespace Account

open AccountLayout

variable {kind : AccountKind} {data : List UInt8}

/-- The grammar of account data, together with the account that the data stands for. -/
inductive Accepts (kind : AccountKind) (data : List UInt8) : Account kind → Prop where
  | bare {base : kind.Base} (bare : data.length = kind.baseLength)
      (based : unpackBase kind data = .ok base) : Accepts kind data ⟨base, none⟩
  | extended {base : kind.Base} {entries : List Entry} {unused : List UInt8}
      {extensions : List Extension} (extended : Extended kind data)
      (based : unpackBase kind data = .ok base)
      (divided : Entry.Divides (data.drop entriesStart) entries (.tail unused))
      (held : List.Forall₂ (fun entry extension => entry.unpack = .ok extension)
        entries extensions) :
      Accepts kind data ⟨base, some extensions⟩

/-- Why data is no account: the first check that fails, where the frame is checked before the base
record, and the base record before the entries in order. -/
inductive Refuses (kind : AccountKind) (data : List UInt8) : Error → Prop where
  | frame {error : Error} (misframed : Misframed kind data error) : Refuses kind data error
  | base {error : Error} (framed : data.length = kind.baseLength ∨ Extended kind data)
      (failed : unpackBase kind data = .error error) : Refuses kind data error
  /-- The value of an entry is refused, and those before it are not. -/
  | value {error : Error} {base : kind.Base} {before after : List Entry} {refused : Entry}
      {ending : Entry.Ending} (extended : Extended kind data)
      (based : unpackBase kind data = .ok base)
      (divided : Entry.Divides (data.drop entriesStart) (before ++ refused :: after) ending)
      (readable : ∀ entry ∈ before, ∃ extension, entry.unpack = .ok extension)
      (failed : refused.unpack = .error error) : Refuses kind data error
  /-- The last entry is cut short, and the values before it are not refused. -/
  | truncated {base : kind.Base} {entries : List Entry} {code : UInt16} {declared : Nat}
      {left : List UInt8} (extended : Extended kind data)
      (based : unpackBase kind data = .ok base)
      (divided : Entry.Divides (data.drop entriesStart) entries (.cut code declared left))
      (readable : ∀ entry ∈ entries, ∃ extension, entry.unpack = .ok extension) :
      Refuses kind data (.truncatedExtensionData code declared left.length)

/-- Data is read as an account just if the grammar derives the account from it. -/
theorem unpack_eq_ok_iff {account : Account kind} :
    unpack kind data = .ok account ↔ Accepts kind data account := by
  constructor
  · intro unpacked
    rcases account with ⟨base, extensions⟩
    cases extensions with
    | none =>
        rcases unpack_eq_ok_none_iff.mp unpacked with ⟨bare, based⟩
        exact .bare bare based
    | some extensions =>
        rcases unpack_eq_ok_some_iff.mp unpacked with ⟨extended, based, listed⟩
        rcases Entry.exists_divides (data.drop entriesStart) with ⟨entries, ending, divided⟩
        rcases (Extension.unpackAll_eq_ok_iff divided).mp listed with ⟨⟨unused, rfl⟩, held⟩
        exact .extended extended based divided held
  · intro accepted
    cases accepted with
    | bare bare based => exact unpack_eq_ok_none_iff.mpr ⟨bare, based⟩
    | extended extended based divided held =>
        have listed := (Extension.unpackAll_eq_ok_iff divided).mpr ⟨⟨_, rfl⟩, held⟩
        exact unpack_eq_ok_some_iff.mpr ⟨extended, based, listed⟩

/-- Data is refused for the first check that fails. -/
theorem unpack_eq_error_iff {error : Error} :
    unpack kind data = .error error ↔ Refuses kind data error := by
  constructor
  · intro refused
    rcases framed_or_misframed kind data with bare | extended | ⟨cause, misframed⟩
    · rw [unpack_of_bare bare] at refused
      exact .base (.inl bare) (Outcome.map_eq_error_iff.mp refused)
    · rw [unpack_of_extended extended] at refused
      rcases Outcome.bind_eq_error_iff.mp refused with failed | ⟨base, based, entriesRefused⟩
      · exact .base (.inr extended) failed
      rcases Outcome.bind_eq_error_iff.mp entriesRefused with failed | ⟨_, _, ending⟩
      · rcases Entry.exists_divides (data.drop entriesStart) with ⟨entries, ending, divided⟩
        rcases (Extension.unpackAll_eq_error_iff divided).mp failed with
          ⟨before, bad, after, rfl, readable, badFailed⟩ |
          ⟨readable, code, declared, left, rfl, rfl⟩
        · exact .value extended based divided readable badFailed
        · exact .truncated extended based divided readable
      · cases ending
    · rw [unpack_of_misframed misframed] at refused
      cases refused
      exact .frame misframed
  · intro refused
    cases refused with
    | frame misframed => exact unpack_of_misframed misframed
    | base framed failed =>
        rcases framed with bare | extended
        · rw [unpack_of_bare bare, failed]
          rfl
        · rw [unpack_of_extended extended, failed, Outcome.error_bind]
    | value extended based divided readable failed =>
        rw [unpack_of_extended extended, based, Outcome.ok_bind,
          (Extension.unpackAll_eq_error_iff divided).mpr
            (.inl ⟨_, _, _, rfl, readable, failed⟩),
          Outcome.error_bind]
    | truncated extended based divided readable =>
        rw [unpack_of_extended extended, based, Outcome.ok_bind,
          (Extension.unpackAll_eq_error_iff divided).mpr
            (.inr ⟨readable, _, _, _, rfl, rfl⟩),
          Outcome.error_bind]

/-- Bytes that are no entry may stand for one another behind the entries. -/
theorem unpack_replace_tail {entries : List Entry} {unused other : List UInt8}
    (extended : Extended kind data)
    (divided : Entry.Divides (data.drop entriesStart) entries (.tail unused))
    (otherIsTail : Entry.IsTail other)
    (length_ne : (data.take (data.length - unused.length) ++ other).length ≠ Multisig.length) :
    unpack kind (data.take (data.length - unused.length) ++ other) = unpack kind data := by
  have filled := extended.length_take
  have entriesAt : data.drop entriesStart = entries.flatMap Entry.write ++ unused :=
    divided.data_eq
  rcases extended.take_eq_frame entriesAt with ⟨front, length⟩
  rw [show data.length - unused.length = entriesStart + (entries.flatMap Entry.write).length by
    omega] at length_ne ⊢
  rw [front, frame_append] at length_ne ⊢
  have otherExtended := extended_frame filled length_ne
  rw [unpack_of_extended otherExtended, unpack_of_extended extended, drop_frame filled, entriesAt,
    Extension.unpackAll_append_tail_congr divided.sound otherIsTail divided.valid]
  congr 1
  rw [unpackBase_of_length_le (Nat.le_of_lt otherExtended.baseLength_lt),
    unpackBase_of_length_le (Nat.le_of_lt extended.baseLength_lt), take_frame filled]

/-- Reading accepts the account grammar and nothing else.  Data is read as an account just if the
grammar derives the account from it, and refused for the first check that fails.  It divides into
entries in one way only, and a tail that is no entry may be replaced by any other. -/
theorem unpack_recognizes_grammar (kind : AccountKind) (data : List UInt8) :
    (∀ account, unpack kind data = .ok account ↔ Accepts kind data account) ∧
    (∀ error, unpack kind data = .error error ↔ Refuses kind data error) ∧
    (∀ entries ending others otherEnding,
      Entry.Divides (data.drop entriesStart) entries ending →
      Entry.Divides (data.drop entriesStart) others otherEnding →
        entries = others ∧ ending = otherEnding) ∧
    (∀ entries unused other, Extended kind data →
      Entry.Divides (data.drop entriesStart) entries (.tail unused) → Entry.IsTail other →
      (data.take (data.length - unused.length) ++ other).length ≠ Multisig.length →
        unpack kind (data.take (data.length - unused.length) ++ other) = unpack kind data) := by
  refine ⟨fun _ => unpack_eq_ok_iff, fun _ => unpack_eq_error_iff, ?divides, ?tails⟩
  case divides =>
    intro entries ending others otherEnding divided otherDivided
    exact divided.unique otherDivided
  case tails =>
    intro entries unused other extended divided otherIsTail length_ne
    exact unpack_replace_tail extended divided otherIsTail length_ne

/-! ## One account with an unused byte -/

/-- A token account whose absent delegate has a slot that is not clear, whose only entry ends where
a multisignature account does, and which has one byte behind it. -/
def spareToken : List UInt8 :=
  List.replicate 72 1 ++ ([0, 0, 0, 0] ++ List.replicate 32 9) ++ [1] ++ List.replicate 56 0 ++
    [2] ++ (Entry.header 777 185 ++ List.replicate 185 5) ++ [8]

theorem extended_spareToken : Extended .token spareToken :=
  ⟨by decide +kernel, by decide +kernel, by decide +kernel, by decide +kernel⟩

theorem divides_spareToken :
    Entry.Divides (spareToken.drop entriesStart) [⟨777, List.replicate 185 5⟩] (.tail [8]) := by
  refine ⟨by decide +kernel, ?_, .inl (by decide)⟩
  rintro _ (_ | ⟨_, ⟨⟩⟩)
  exact ⟨by decide, by decide +kernel⟩

/-- The byte behind the entry of that account may be replaced by unused space with a header. -/
theorem unpack_spareToken_replaced :
    Entry.IsTail [0, 0, 3, 0, 4] ∧
      (spareToken.take (spareToken.length - 1) ++ [0, 0, 3, 0, 4]).length ≠ Multisig.length ∧
      unpack .token (spareToken.take (spareToken.length - 1) ++ [0, 0, 3, 0, 4]) =
        unpack .token spareToken := by
  have isTail : Entry.IsTail [0, 0, 3, 0, 4] := .inr (by decide)
  have length_ne :
      (spareToken.take (spareToken.length - 1) ++ [0, 0, 3, 0, 4]).length ≠ Multisig.length := by
    decide +kernel
  rcases unpack_recognizes_grammar .token spareToken with ⟨-, -, -, tails⟩
  have replaced := tails _ _ _ extended_spareToken divides_spareToken isTail
  rw [List.length_singleton] at replaced
  exact ⟨isTail, length_ne, replaced length_ne⟩

end Account

end TokenAccounts
