import TokenAccounts.Proofs.Account.RoundTrip
import TokenAccounts.Proofs.Field.Checkpoint
import TokenAccounts.Proofs.Field.Slot

/-!
# Base records

A base record is read from any bytes that are long enough and have no fault at a few places, and the
first place with a fault says why it is refused.  Main statement: that, and that base records are
read back as they were written, whatever follows them; in the other direction, a record is written
as the bytes it was read from with zeros where they are free, so that two byte strings hold the same
record just if they agree elsewhere.
-/

namespace TokenAccounts

namespace AccountKind

/-- The places of a base record that can have a fault, in the order in which they lie. -/
def checkpoints : AccountKind → List Checkpoint
  | .mint => [.tag 0, .flag 45, .tag 46]
  | .token => [.tag 72, .state 108, .tag 109, .tag 129]

/-- The slots of a base record. -/
def slots : AccountKind → List Slot
  | .mint => [⟨0, 32⟩, ⟨46, 32⟩]
  | .token => [⟨72, 32⟩, ⟨109, 8⟩, ⟨129, 32⟩]

theorem checkpoints_base (kind : AccountKind) :
    Record.checkpoints kind.Base = kind.checkpoints := by
  cases kind <;> rfl

theorem slots_base (kind : AccountKind) : Record.slots kind.Base = kind.slots := by
  cases kind <;> rfl

theorem tagsClear_slots (kind : AccountKind) : TagsClear kind.slots := by
  cases kind <;> decide

theorem fault?_base (kind : AccountKind) (data : List UInt8) :
    Record.fault? kind.Base (data.take kind.baseLength) =
      kind.checkpoints.findSome? (·.fault? data) := by
  rw [Record.fault?_take kind.width?_base, checkpoints_base]

theorem clears_base (kind : AccountKind) :
    Clears (Record.clearAbsent kind.Base) kind.baseLength kind.slots := by
  rw [← slots_base]
  exact Record.clears_clearAbsent kind.width?_base

/-- What is free in a base record is free whatever follows it. -/
theorem freeRegion_take_base (kind : AccountKind) (data : List UInt8) :
    freeRegion kind.slots (data.take kind.baseLength) = freeRegion kind.slots data :=
  freeRegion_take kind.clears_base.inside

end AccountKind

namespace Account

variable {kind : AccountKind} {data left right : List UInt8} {base : kind.Base} {error : Error}

/-! ## Acceptance -/

/-- Bytes without a fault hold a base record. -/
theorem exists_of_no_fault (long : kind.baseLength ≤ data.length)
    (clean : kind.checkpoints.findSome? (·.fault? data) = none) :
    ∃ base, unpackBase kind data = .ok base := by
  rw [← kind.fault?_base] at clean
  obtain ⟨base, read⟩ := (Record.judges_read kind.width?_base).accepts
    (List.length_take_of_le long) clean []
  rw [List.append_nil] at read
  exact ⟨base, (unpackBase_of_length_le long).trans (congrArg Prod.fst read)⟩

/-- Bytes with a fault are refused for the first one. -/
theorem unpackBase_of_fault (long : kind.baseLength ≤ data.length)
    (faulty : kind.checkpoints.findSome? (·.fault? data) = some error) :
    unpackBase kind data = .error error := by
  rw [← kind.fault?_base] at faulty
  obtain ⟨rest, read⟩ := (Record.judges_read kind.width?_base).refuses
    (List.length_take_of_le long) faulty []
  rw [List.append_nil] at read
  exact (unpackBase_of_length_le long).trans (congrArg Prod.fst read)

theorem unpackBase_of_length_lt (short : data.length < kind.baseLength) :
    unpackBase kind data = .error (.invalidAccountSize data.length) := if_pos short

theorem exists_unpackBase_eq_ok_iff :
    (∃ base, unpackBase kind data = .ok base) ↔
      kind.baseLength ≤ data.length ∧ ∀ place ∈ kind.checkpoints, place.fault? data = none := by
  constructor
  · intro accepted
    obtain ⟨base, read⟩ := accepted
    have long : kind.baseLength ≤ data.length := by
      by_contra short
      rw [unpackBase_of_length_lt (Nat.lt_of_not_le short)] at read
      cases read
    refine ⟨long, List.findSome?_eq_none_iff.mp ?_⟩
    rw [Option.eq_none_iff_forall_ne_some]
    intro error faulty
    rw [unpackBase_of_fault long faulty] at read
    cases read
  · intro clean
    exact exists_of_no_fault clean.1 (List.findSome?_eq_none_iff.mpr clean.2)

theorem unpackBase_eq_error_iff :
    unpackBase kind data = .error error ↔
      data.length < kind.baseLength ∧ error = .invalidAccountSize data.length ∨
        kind.baseLength ≤ data.length ∧
          kind.checkpoints.findSome? (·.fault? data) = some error := by
  rcases Nat.lt_or_ge data.length kind.baseLength with short | long
  · rw [unpackBase_of_length_lt short]
    simp [short, Nat.not_le_of_lt short, eq_comm]
  · simp only [Nat.not_lt_of_le long, long, false_and, true_and, false_or]
    cases faulty : kind.checkpoints.findSome? (·.fault? data) with
    | none =>
        obtain ⟨base, read⟩ := exists_of_no_fault long faulty
        simp [read]
    | some found =>
        rw [unpackBase_of_fault long faulty]
        simp

/-! ## Writing back what was read -/

theorem unpackBase_write_append (base : kind.Base) (rest : List UInt8) :
    unpackBase kind (Record.write base ++ rest) = .ok base := by
  have filled := AccountKind.length_write_base base
  have long : kind.baseLength ≤ (Record.write base ++ rest).length := by
    rw [List.length_append, filled]
    exact Nat.le_add_right ..
  rw [unpackBase_of_length_le long, List.take_left' filled, AccountKind.read_base_write]

theorem baseLength_le_of_unpackBase (read : unpackBase kind data = .ok base) :
    kind.baseLength ≤ data.length :=
  (exists_unpackBase_eq_ok_iff.mp ⟨base, read⟩).1

/-- A base record is written as the bytes it was read from, with zeros where they are free. -/
theorem write_of_unpackBase (read : unpackBase kind data = .ok base) :
    (∀ index ∈ freeRegion kind.slots data, (Record.write base)[index]? = some 0) ∧
      AgreeOutside (freeRegion kind.slots data) (Record.write base)
        (data.take kind.baseLength) := by
  have long := baseLength_le_of_unpackBase read
  have filled := List.length_take_of_le long
  rw [← clearAbsent_of_unpackBase long read, ← kind.freeRegion_take_base]
  exact ⟨kind.clears_base.zero_of_free filled, kind.clears_base.agree filled⟩

/-- Which record the bytes of a base record hold depends on the bytes that are not free. -/
theorem unpackBase_eq_iff {leftBase rightBase : kind.Base}
    (leftFilled : left.length = kind.baseLength) (rightFilled : right.length = kind.baseLength)
    (leftRead : unpackBase kind left = .ok leftBase)
    (rightRead : unpackBase kind right = .ok rightBase) :
    leftBase = rightBase ↔ AgreeOutside (freeRegion kind.slots left) left right := by
  have leftCleared := clearAbsent_of_unpackBase (Nat.le_of_eq leftFilled.symm) leftRead
  have rightCleared := clearAbsent_of_unpackBase (Nat.le_of_eq rightFilled.symm) rightRead
  rw [List.take_of_length_le (Nat.le_of_eq leftFilled)] at leftCleared
  rw [List.take_of_length_le (Nat.le_of_eq rightFilled)] at rightCleared
  rw [← kind.clears_base.eq_iff kind.tagsClear_slots leftFilled rightFilled, leftCleared,
    rightCleared]
  constructor
  · intro same
    rw [same]
  · intro same
    have leftWritten := AccountKind.read_base_write leftBase
    rw [same, AccountKind.read_base_write] at leftWritten
    exact (Except.ok.inj leftWritten).symm

/-- Base records are read back as they were written.  They are accepted just if they are long enough
and what stands at the checked places is in range, and refused for the first place where it is not.
They are written as the bytes they were read from with zeros in the slots of absent values, and hold
the same record just if they agree outside those slots. -/
theorem base_records_are_canonical :
    (∀ (kind : AccountKind) (base : kind.Base) (rest : List UInt8),
      unpackBase kind (Record.write base ++ rest) = .ok base ∧
        (Record.write base).length = kind.baseLength) ∧
    (∀ data, (∃ mint, unpackBase .mint data = .ok mint) ↔
      82 ≤ data.length ∧ tagAt data 0 ≤ 1 ∧ byteAt data 45 ≤ 1 ∧ tagAt data 46 ≤ 1) ∧
    (∀ data, (∃ token, unpackBase .token data = .ok token) ↔
      165 ≤ data.length ∧ tagAt data 72 ≤ 1 ∧ byteAt data 108 ≤ 2 ∧ tagAt data 109 ≤ 1 ∧
        tagAt data 129 ≤ 1) ∧
    (∀ kind data error, unpackBase kind data = .error error ↔
      data.length < kind.baseLength ∧ error = .invalidAccountSize data.length ∨
        kind.baseLength ≤ data.length ∧
          kind.checkpoints.findSome? (·.fault? data) = some error) ∧
    (∀ kind data base, unpackBase kind data = .ok base →
      (∀ index ∈ freeRegion kind.slots data, (Record.write base)[index]? = some 0) ∧
        AgreeOutside (freeRegion kind.slots data) (Record.write base)
          (data.take kind.baseLength)) ∧
    (∀ kind left right leftBase rightBase,
      left.length = kind.baseLength → right.length = kind.baseLength →
        unpackBase kind left = .ok leftBase → unpackBase kind right = .ok rightBase →
          (leftBase = rightBase ↔ AgreeOutside (freeRegion kind.slots left) left right)) := by
  refine ⟨?readBack, ?mints, ?tokens, ?refusal, ?written, ?same⟩
  case readBack =>
    intro kind base rest
    exact ⟨unpackBase_write_append base rest, AccountKind.length_write_base base⟩
  case mints =>
    intro data
    refine exists_unpackBase_eq_ok_iff.trans ?_
    simp only [AccountKind.baseLength, AccountKind.checkpoints, List.forall_mem_cons,
      List.not_mem_nil, false_implies, implies_true, and_true, Checkpoint.fault?_tag_eq_none_iff,
      Checkpoint.fault?_flag_eq_none_iff]
  case tokens =>
    intro data
    refine exists_unpackBase_eq_ok_iff.trans ?_
    simp only [AccountKind.baseLength, AccountKind.checkpoints, List.forall_mem_cons,
      List.not_mem_nil, false_implies, implies_true, and_true, Checkpoint.fault?_tag_eq_none_iff,
      Checkpoint.fault?_state_eq_none_iff]
  case refusal =>
    intro kind data error
    exact unpackBase_eq_error_iff
  case written =>
    intro kind data base read
    exact write_of_unpackBase read
  case same =>
    intro kind left right leftBase rightBase leftFilled rightFilled leftRead rightRead
    exact unpackBase_eq_iff leftFilled rightFilled leftRead rightRead

/-- The data of a mint without authorities, with a byte all over the slots for them. -/
def scribbledMint (byte : UInt8) : List UInt8 :=
  [0, 0, 0, 0] ++ List.replicate 32 byte ++ [1, 2, 0, 0, 0, 0, 0, 0, 9, 1] ++
    [0, 0, 0, 0] ++ List.replicate 32 byte

/-- Mints with different bytes in the slots of their absent authorities are the same mint, and are
written with zeros there. -/
theorem base_records_are_canonical_scribbledMint :
    ∃ mint, unpackBase .mint (scribbledMint 7) = .ok mint ∧
      unpackBase .mint (scribbledMint 9) = .ok mint ∧ scribbledMint 7 ≠ scribbledMint 9 ∧
      AgreeOutside (freeRegion AccountKind.mint.slots (scribbledMint 7)) (scribbledMint 7)
        (scribbledMint 9) ∧
      (Record.write mint)[50]? = some 0 := by
  obtain ⟨-, -, -, -, written, same⟩ := base_records_are_canonical
  have left : unpackBase .mint (scribbledMint 7) = .ok ⟨none, 513, 9, true, none⟩ := by
    decide +kernel
  have right : unpackBase .mint (scribbledMint 9) = .ok ⟨none, 513, 9, true, none⟩ := by
    decide +kernel
  have free : 50 ∈ freeRegion AccountKind.mint.slots (scribbledMint 7) :=
    ⟨⟨46, 32⟩, by decide, by decide, by decide, by decide⟩
  exact ⟨_, left, right, by decide, (same _ _ _ _ _ rfl rfl left right).mp rfl,
    (written _ _ _ left).1 50 free⟩

end Account

end TokenAccounts
