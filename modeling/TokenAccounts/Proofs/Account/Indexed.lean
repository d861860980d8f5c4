import TokenAccounts.Proofs.Account.Frame
import TokenAccounts.Proofs.Extension.Indexed

/-!
# Reading accounts by position

The tag of an account, the gap before it, the base record and the entries stand at known positions.
Each is taken from there only after the length was compared.  Main statement: the bytes that are
taken are there, and the account that is read is the one read from the front.
-/

namespace TokenAccounts

open Checked (settled)

namespace Multisig

def unpackIndexed (data : List UInt8) : Checked Multisig :=
  if data.length ≠ length then throw (.invalidAccountSize data.length)
  else readIndexed.outcome data

theorem unpackIndexed_eq (data : List UInt8) : unpackIndexed data = settled (unpack data) := by
  rw [unpackIndexed, unpack]
  by_cases filled : data.length = length
  · rw [if_neg (not_not_intro filled), if_pos filled, follows_read.outcome_eq]
  · rw [if_pos filled, if_neg filled]
    rfl

end Multisig

namespace Account

open AccountLayout

variable {kind : AccountKind} {data : List UInt8} {error : Error}

/-- The bytes that a mint leaves out before the tag of an extended account. -/
def checkGapIndexed : AccountKind → List UInt8 → Checked Unit
  | .token, _ => pure ()
  | .mint, data => do
      let gap ← slice? data (AccountKind.baseLength .mint) tagIndex
      if gap.any (· != 0) then throw .invalidPadding else pure ()

def checkTagIndexed (kind : AccountKind) (data : List UInt8) : Checked Unit :=
  if data.length ≤ tagIndex then throw (.invalidAccountSize data.length)
  else do
    let tag ← (data[tagIndex]? : Option UInt8)
    if tag = AccountType.uninitialized.code then throw .accountNotInitialized
    else if tag ≠ kind.type.code then throw (.accountTypeMismatch kind.type tag)
    else checkGapIndexed kind data

def checkIndexed (kind : AccountKind) (data : List UInt8) : Checked Unit :=
  if data.length < kind.baseLength then throw (.invalidAccountSize data.length)
  else if data.length = Multisig.length then throw (.invalidAccountSize data.length)
  else if data.length = kind.baseLength then pure ()
  else checkTagIndexed kind data

def unpackBaseIndexed (kind : AccountKind) (data : List UInt8) : Checked kind.Base :=
  if data.length < kind.baseLength then throw (.invalidAccountSize data.length)
  else do
    let front ← slice? data 0 kind.baseLength
    (Record.readIndexed : IndexedReader kind.Base).outcome front

def unpackIndexed (kind : AccountKind) (data : List UInt8) : Checked (Account kind) := do
  checkIndexed kind data
  let base ← unpackBaseIndexed kind data
  if data.length = kind.baseLength then pure ⟨base, none⟩
  else
    let entries ← slice? data entriesStart data.length
    let extensions ← Extension.unpackAllFrom entries 0
    pure ⟨base, some extensions⟩

def findBytesIndexed (kind : AccountKind) (data : List UInt8) (type : ExtensionType) :
    Checked (List UInt8) := do
  settled (checkBelongs kind type)
  checkIndexed kind data
  if data.length = kind.baseLength then throw .extensionNotFound
  else
    let entries ← slice? data entriesStart data.length
    Extension.findBytesFrom entries type 0

theorem checkGapIndexed_eq (kind : AccountKind) (inside : tagIndex ≤ data.length) :
    checkGapIndexed kind data = settled
      (if ((data.take tagIndex).drop kind.baseLength).any (· != 0) then .error .invalidPadding
      else .ok ()) := by
  cases kind with
  | mint =>
      rw [checkGapIndexed, slice?_of_le (AccountKind.baseLength_le_tagIndex .mint) inside,
        Checked.some_bind]
      split <;> rfl
  | token =>
      -- Nothing lies between the base record of a token account and the tag.
      have none : (data.take tagIndex).drop (AccountKind.baseLength .token) = [] :=
        List.drop_eq_nil_of_le (List.length_take_le ..)
      rw [none]
      rfl

theorem checkTagIndexed_eq (kind : AccountKind) (data : List UInt8) :
    checkTagIndexed kind data = settled (checkTag kind data) := by
  rw [checkTagIndexed, checkTag]
  by_cases short : data.length ≤ tagIndex
  · rw [if_pos short, List.getElem?_eq_none short]
    rfl
  have inside : tagIndex < data.length := Nat.lt_of_not_le short
  rw [if_neg short, List.getElem?_eq_getElem inside, Checked.some_bind]
  dsimp only
  split
  · rfl
  · split
    · rfl
    · exact checkGapIndexed_eq kind (Nat.le_of_lt inside)

theorem checkIndexed_eq (kind : AccountKind) (data : List UInt8) :
    checkIndexed kind data = settled (check kind data) := by
  rw [checkIndexed, check]
  by_cases short : data.length < kind.baseLength
  · rw [if_pos short, if_pos (.inl short)]
    rfl
  by_cases multisig : data.length = Multisig.length
  · rw [if_neg short, if_pos multisig, if_pos (.inr multisig)]
    rfl
  rw [if_neg short, if_neg multisig, if_neg (not_or.mpr ⟨short, multisig⟩)]
  split
  · rfl
  · exact checkTagIndexed_eq kind data

theorem unpackBaseIndexed_eq (kind : AccountKind) (data : List UInt8) :
    unpackBaseIndexed kind data = settled (unpackBase kind data) := by
  rw [unpackBaseIndexed, unpackBase]
  split
  · rfl
  · next long =>
      rw [slice?_of_le (Nat.zero_le _) (Nat.le_of_not_lt long), Checked.some_bind, List.drop_zero,
        Record.follows_read.outcome_eq]

/-- Data that passes the check and is no base record alone is long enough to have entries. -/
theorem slice?_entries (checked : check kind data = .ok ())
    (bare : data.length ≠ kind.baseLength) :
    slice? data entriesStart data.length = some (data.drop entriesStart) := by
  rcases framed_or_misframed kind data with isBare | extended | ⟨error, misframed⟩
  · exact absurd isBare bare
  · rw [slice?_of_le extended.entriesStart_le (Nat.le_refl _), List.take_length]
  · rw [check_of_misframed misframed] at checked
    cases checked

theorem unpackIndexed_eq (kind : AccountKind) (data : List UInt8) :
    unpackIndexed kind data = settled (unpack kind data) := by
  rw [unpackIndexed, unpack, checkIndexed_eq, unpackBaseIndexed_eq]
  cases checked : check kind data with
  | error error => rfl
  | ok passed =>
      rw [Checked.settled_ok_bind, Outcome.ok_bind]
      cases unpackBase kind data with
      | error error => rfl
      | ok base =>
          rw [Checked.settled_ok_bind, Outcome.ok_bind]
          split
          · rfl
          · next bare =>
              rw [slice?_entries checked bare, Checked.some_bind, Extension.unpackAllFrom_eq,
                List.drop_zero]
              cases Extension.unpackAll (data.drop entriesStart) <;> rfl

theorem findBytesIndexed_eq (kind : AccountKind) (data : List UInt8) (type : ExtensionType) :
    findBytesIndexed kind data type = settled (findBytes kind data type) := by
  rw [findBytesIndexed, findBytes, checkIndexed_eq]
  cases checkBelongs kind type with
  | error error => rfl
  | ok belongs =>
      rw [Checked.settled_ok_bind, Outcome.ok_bind]
      cases checked : check kind data with
      | error error => rfl
      | ok passed =>
          rw [Checked.settled_ok_bind, Outcome.ok_bind]
          split
          · rfl
          · next bare =>
              rw [slice?_entries checked bare, Checked.some_bind, Extension.findBytesFrom_eq,
                List.drop_zero]

end Account

end TokenAccounts
