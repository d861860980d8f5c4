import TokenAccounts.Proofs.Field.Fault

/-!
# Where faults can be

Only a few places of a record of fixed width can have a fault: the bytes of truth values and account
states, and the tags of slots.  Main statement: what is wrong with a record is what is wrong at the
first of these places that has a fault.
-/

namespace TokenAccounts

/-- The number in the four bytes at a position. -/
def tagAt (bytes : List UInt8) (index : Nat) : UInt32 :=
  UInt32.ofNat (ofLittleEndian ((bytes.drop index).take 4))

/-- The byte at a position, or zero behind the end. -/
def byteAt (bytes : List UInt8) (index : Nat) : UInt8 := bytes[index]?.getD 0

/-- A place in a record where not everything can stand. -/
inductive Checkpoint where
  /-- The tag of a slot. -/
  | tag (index : Nat)
  /-- The byte of a truth value. -/
  | flag (index : Nat)
  /-- The byte of an account state. -/
  | state (index : Nat)
  deriving DecidableEq, Repr

namespace Checkpoint

/-- What is wrong at a place, if anything is. -/
def fault? (bytes : List UInt8) : Checkpoint → Option Error
  | .tag index => (Error.invalidOptionDiscriminant (tagAt bytes index)).when (1 < tagAt bytes index)
  | .flag index => (Error.invalidBool (byteAt bytes index)).when (1 < byteAt bytes index)
  | .state index => (Error.invalidAccountState (byteAt bytes index)).when (2 < byteAt bytes index)

/-- The same place with other bytes in front. -/
def shift (distance : Nat) : Checkpoint → Checkpoint
  | .tag index => .tag (index + distance)
  | .flag index => .flag (index + distance)
  | .state index => .state (index + distance)

variable {bytes : List UInt8}

theorem fault?_shift (checkpoint : Checkpoint) (distance : Nat) :
    (checkpoint.shift distance).fault? bytes = checkpoint.fault? (bytes.drop distance) := by
  cases checkpoint with
  | tag index =>
      have same : tagAt bytes (index + distance) = tagAt (bytes.drop distance) index := by
        rw [tagAt, tagAt, List.drop_drop, Nat.add_comm]
      simp only [shift, fault?, same]
  | flag index | state index =>
      have same : byteAt bytes (index + distance) = byteAt (bytes.drop distance) index := by
        rw [byteAt, byteAt, List.getElem?_drop, Nat.add_comm]
      simp only [shift, fault?, same]

/-- The first fault at places that all lie behind other bytes. -/
theorem findSome?_shift (checkpoints : List Checkpoint) (distance : Nat) :
    (checkpoints.map (·.shift distance)).findSome? (·.fault? bytes) =
      checkpoints.findSome? (·.fault? (bytes.drop distance)) := by
  rw [List.findSome?_map]
  congr 1
  funext checkpoint
  exact checkpoint.fault?_shift distance

/-! ## Places without a fault -/

theorem fault?_tag_eq_none_iff {index : Nat} :
    (tag index).fault? bytes = none ↔ tagAt bytes index ≤ 1 :=
  Error.when_eq_none_iff.trans UInt32.not_lt

theorem fault?_flag_eq_none_iff {index : Nat} :
    (flag index).fault? bytes = none ↔ byteAt bytes index ≤ 1 :=
  Error.when_eq_none_iff.trans UInt8.not_lt

theorem fault?_state_eq_none_iff {index : Nat} :
    (state index).fault? bytes = none ↔ byteAt bytes index ≤ 2 :=
  Error.when_eq_none_iff.trans UInt8.not_lt

end Checkpoint

section Fields

variable {width : Nat}

/-- The places of a field that can have a fault. -/
def Format.checkpoints : Format → List Checkpoint
  | .flag => [.flag 0]
  | .accountState => [.state 0]
  | .slotted _ => [.tag 0]
  | _ => []

theorem Format.fault?_take {format : Format} (fixed : format.width? = some width)
    (bytes : List UInt8) :
    format.fault? (bytes.take width) = format.checkpoints.findSome? (·.fault? bytes) := by
  have first : (bytes.take 1).headD 0 = byteAt bytes 0 := by
    rw [byteAt, List.headD_eq_head?_getD, List.head?_take, if_neg Nat.one_ne_zero,
      List.head?_eq_getElem?]
  cases format with
  | flag =>
      cases fixed
      simp only [fault?, first, checkpoints, List.findSome?_singleton, Checkpoint.fault?]
      apply Error.when_congr
      simp only [ne_eq, UInt8.lt_iff_toNat_lt, ← UInt8.toNat_inj, UInt8.toNat_ofNat]
      omega
  | accountState =>
      cases fixed
      simp only [fault?, first, checkpoints, List.findSome?_singleton, Checkpoint.fault?]
      apply Error.when_congr
      simp only [ne_eq, UInt8.lt_iff_toNat_lt, ← UInt8.toNat_inj, UInt8.toNat_ofNat]
      omega
  | slotted item =>
      cases fixed
      have tag : tagOf (bytes.take (4 + item.width)) = tagAt bytes 0 := by
        rw [tagOf, tagAt, List.take_take, Nat.min_eq_left (Nat.le_add_right ..), List.drop_zero]
      simp only [fault?, tag, checkpoints, List.findSome?_singleton, Checkpoint.fault?]
      apply Error.when_congr
      simp only [ne_eq, UInt32.lt_iff_toNat_lt, ← UInt32.toNat_inj, UInt32.toNat_ofNat]
      omega
  | scalar | nonzero | tagged | text | pairs => rfl

namespace Layout

variable {Description : Type} {fieldFault? : Description → List UInt8 → Option Error}
variable {fieldWidth? : Description → Option Nat}
variable {fieldCheckpoints : Description → List Checkpoint}

/-- The places of the fields that can have a fault.  Where a field begins is known only behind
fields of fixed width. -/
def checkpoints (fieldCheckpoints : Description → List Checkpoint)
    (fieldWidth? : Description → Option Nat) : Layout Description → List Checkpoint
  | [] => []
  | field :: rest =>
      match fieldWidth? field.type with
      | some width =>
          fieldCheckpoints field.type ++
            (checkpoints fieldCheckpoints fieldWidth? rest).map (·.shift width)
      | none => []

theorem fault?_take
    (each : ∀ type width, fieldWidth? type = some width → ∀ bytes,
      fieldFault? type (bytes.take width) = (fieldCheckpoints type).findSome? (·.fault? bytes))
    {layout : Layout Description} (fixed : layout.width? fieldWidth? = some width)
    (bytes : List UInt8) :
    layout.fault? fieldFault? fieldWidth? (bytes.take width) =
      (layout.checkpoints fieldCheckpoints fieldWidth?).findSome? (·.fault? bytes) := by
  induction layout generalizing width bytes with
  | nil => rfl
  | cons field fields ih =>
      simp only [width?, Option.bind_eq_bind, Option.bind_eq_some_iff, Option.some.injEq] at fixed
      obtain ⟨first, firstFixed, others, othersFixed, rfl⟩ := fixed
      simp only [fault?, checkpoints, firstFixed]
      rw [List.findSome?_append, Checkpoint.findSome?_shift, List.take_take,
        Nat.min_eq_left (Nat.le_add_right ..), List.drop_take, Nat.add_sub_cancel_left,
        each _ _ firstFixed, ih othersFixed]

end Layout

/-- The places of a field that can have a fault. -/
def FieldType.checkpoints : FieldType → List Checkpoint
  | .plain format => format.checkpoints
  | .group fields => fields.checkpoints Format.checkpoints Format.width?

theorem FieldType.fault?_take {type : FieldType} (fixed : type.width? = some width)
    (bytes : List UInt8) :
    type.fault? (bytes.take width) = type.checkpoints.findSome? (·.fault? bytes) := by
  cases type with
  | plain format => exact Format.fault?_take fixed bytes
  | group fields => exact Layout.fault?_take (fun _ _ => Format.fault?_take) fixed bytes

namespace Record

variable {α : Type} [Record α]

/-- The places of a record that can have a fault, in the order in which they lie. -/
def checkpoints (α : Type) [Record α] : List Checkpoint :=
  (layout α).checkpoints FieldType.checkpoints FieldType.width?

theorem fault?_take (fixed : width? α = some width) (bytes : List UInt8) :
    fault? α (bytes.take width) = (checkpoints α).findSome? (·.fault? bytes) :=
  Layout.fault?_take (fun _ _ => FieldType.fault?_take) fixed bytes

end Record

end Fields

end TokenAccounts
