import TokenAccounts.Proofs.Bytes.Region
import TokenAccounts.Proofs.Field.Record

/-!
# The slots of absent values

A slot is there also when its value is absent, and then its bytes are free: they mean nothing.  Main
statements: clearing the bytes of a record makes just the free bytes zero, and two byte strings are
the same when cleared if they agree outside their free bytes.
-/

namespace TokenAccounts

/-- Where a field with a slot lies: the position of its tag, and how many bytes the value behind the
tag takes. -/
structure Slot where
  start : Nat
  width : Nat
  deriving DecidableEq, Repr

namespace Slot

/-- The four bytes of the tag. -/
def tag (slot : Slot) (bytes : List UInt8) : List UInt8 := (bytes.drop slot.start).take 4

/-- Whether a position is in the slot of a value that is absent. -/
def Free (slot : Slot) (bytes : List UInt8) (index : Nat) : Prop :=
  slot.tag bytes = [0, 0, 0, 0] ∧
    slot.start + 4 ≤ index ∧ index < slot.start + 4 + slot.width

/-- The same slot with other bytes in front. -/
def shift (slot : Slot) (distance : Nat) : Slot := ⟨slot.start + distance, slot.width⟩

variable {slot : Slot} {bytes left right : List UInt8} {index distance : Nat}

/-- What is free depends on the tag alone. -/
theorem free_congr (sameTag : slot.tag left = slot.tag right) :
    slot.Free left index ↔ slot.Free right index := by
  rw [Free, Free, sameTag]

theorem free_take_iff (inside : slot.start + 4 + slot.width ≤ distance) :
    slot.Free (bytes.take distance) index ↔ slot.Free bytes index := by
  apply free_congr
  rw [tag, tag, List.drop_take, List.take_take, Nat.min_eq_left (by omega)]

theorem free_shift_iff :
    (slot.shift distance).Free bytes index ↔
      distance ≤ index ∧ slot.Free (bytes.drop distance) (index - distance) := by
  have sameTag : (slot.shift distance).tag bytes = slot.tag (bytes.drop distance) := by
    rw [tag, tag, shift, List.drop_drop, Nat.add_comm]
  simp only [Free, sameTag]
  simp only [shift]
  constructor
  · intro conditions
    obtain ⟨zeros, lower, upper⟩ := conditions
    exact ⟨by omega, zeros, by omega, by omega⟩
  · intro conditions
    obtain ⟨behind, zeros, lower, upper⟩ := conditions
    exact ⟨zeros, by omega, by omega⟩

end Slot

/-- The positions whose bytes mean nothing, because they are in slots of absent values. -/
def freeRegion (slots : List Slot) (bytes : List UInt8) : Set Nat :=
  {index | ∃ slot ∈ slots, slot.Free bytes index}

theorem mem_freeRegion_iff {slots : List Slot} {bytes : List UInt8} {index : Nat} :
    index ∈ freeRegion slots bytes ↔ ∃ slot ∈ slots, slot.Free bytes index := Iff.rfl

theorem freeRegion_congr {slots : List Slot} {left right : List UInt8}
    (each : ∀ slot ∈ slots, ∀ index, slot.Free left index ↔ slot.Free right index) :
    freeRegion slots left = freeRegion slots right := by
  ext index
  apply exists_congr
  intro slot
  apply and_congr_right
  intro member
  exact each slot member index

theorem freeRegion_take {slots : List Slot} {bytes : List UInt8} {width : Nat}
    (inside : ∀ slot ∈ slots, slot.start + 4 + slot.width ≤ width) :
    freeRegion slots (bytes.take width) = freeRegion slots bytes := by
  apply freeRegion_congr
  intro slot member index
  exact Slot.free_take_iff (inside slot member)

/-- Whether clearing byte strings of a width makes the free bytes zero and keeps the others. -/
structure Clears (clear : List UInt8 → List UInt8) (width : Nat) (slots : List Slot) : Prop where
  inside : ∀ slot ∈ slots, slot.start + 4 + slot.width ≤ width
  length_eq : ∀ bytes, (clear bytes).length = bytes.length
  zero_of_free : ∀ {bytes}, bytes.length = width → ∀ index ∈ freeRegion slots bytes,
    (clear bytes)[index]? = some 0
  agree : ∀ {bytes}, bytes.length = width →
    AgreeOutside (freeRegion slots bytes) (clear bytes) bytes

section Parts

variable {clear otherClear : List UInt8 → List UInt8} {width otherWidth : Nat}
variable {slots otherSlots : List Slot} {bytes : List UInt8}

/-- The free positions of two parts are those of the first part and, behind it, those of the
second. -/
theorem mem_freeRegion_append_iff (inside : ∀ slot ∈ slots, slot.start + 4 + slot.width ≤ width)
    {index : Nat} :
    index ∈ freeRegion (slots ++ otherSlots.map (Slot.shift · width)) bytes ↔
      index < width ∧ index ∈ freeRegion slots (bytes.take width) ∨
        width ≤ index ∧ index - width ∈ freeRegion otherSlots (bytes.drop width) := by
  constructor
  · intro free
    obtain ⟨slot, member, slotFree⟩ := free
    rcases List.mem_append.mp member with first | second
    · refine .inl ⟨?_, slot, first, (Slot.free_take_iff (inside slot first)).mpr slotFree⟩
      exact Nat.lt_of_lt_of_le slotFree.2.2 (inside slot first)
    · obtain ⟨original, listed, rfl⟩ := List.mem_map.mp second
      obtain ⟨behind, originalFree⟩ := Slot.free_shift_iff.mp slotFree
      exact .inr ⟨behind, original, listed, originalFree⟩
  · intro free
    rcases free with ⟨-, slot, member, slotFree⟩ | ⟨behind, slot, member, slotFree⟩
    · exact ⟨slot, List.mem_append_left _ member,
        (Slot.free_take_iff (inside slot member)).mp slotFree⟩
    · exact ⟨slot.shift width, List.mem_append_right _ (List.mem_map_of_mem member),
        Slot.free_shift_iff.mpr ⟨behind, slotFree⟩⟩

/-- Where there is no slot, nothing is free. -/
theorem clears_without_slots (width : Nat) : Clears (fun bytes => bytes) width [] where
  inside _ member := by cases member
  length_eq _ := rfl
  zero_of_free _ _ free := by
    obtain ⟨_, member, -⟩ := free
    cases member
  agree _ _ _ := rfl

/-- Two parts are cleared each by itself. -/
theorem Clears.append (first : Clears clear width slots)
    (second : Clears otherClear otherWidth otherSlots) :
    Clears (fun bytes => clear (bytes.take width) ++ otherClear (bytes.drop width))
      (width + otherWidth) (slots ++ otherSlots.map (Slot.shift · width)) := by
  have front {bytes : List UInt8} (filled : bytes.length = width + otherWidth) :
      (bytes.take width).length = width := List.length_take_of_le (by omega)
  have back {bytes : List UInt8} (filled : bytes.length = width + otherWidth) :
      (bytes.drop width).length = otherWidth := by
    rw [List.length_drop]
    omega
  have cleared {bytes : List UInt8} (filled : bytes.length = width + otherWidth) :
      (clear (bytes.take width)).length = width := (first.length_eq _).trans (front filled)
  constructor
  case inside =>
    intro slot member
    rcases List.mem_append.mp member with here | there
    · exact Nat.le_trans (first.inside slot here) (Nat.le_add_right ..)
    · obtain ⟨original, listed, rfl⟩ := List.mem_map.mp there
      have bound := second.inside original listed
      simp only [Slot.shift]
      omega
  case length_eq =>
    intro bytes
    rw [List.length_append, first.length_eq, second.length_eq, ← List.length_append,
      List.take_append_drop]
  case zero_of_free =>
    intro bytes filled index free
    rcases (mem_freeRegion_append_iff first.inside).mp free with ⟨inFront, here⟩ | ⟨behind, there⟩
    · rw [List.getElem?_append_left (by rwa [cleared filled])]
      exact first.zero_of_free (front filled) index here
    · rw [List.getElem?_append_right (by rwa [cleared filled]), cleared filled]
      exact second.zero_of_free (back filled) _ there
  case agree =>
    intro bytes filled index kept
    rw [mem_freeRegion_append_iff first.inside, not_or] at kept
    by_cases inFront : index < width
    · have keptHere : index ∉ freeRegion slots (bytes.take width) :=
        fun here => kept.1 ⟨inFront, here⟩
      rw [List.getElem?_append_left (by rwa [cleared filled]),
        first.agree (front filled) index keptHere, List.getElem?_take_of_lt inFront]
    · have behind : width ≤ index := Nat.le_of_not_lt inFront
      have keptThere : index - width ∉ freeRegion otherSlots (bytes.drop width) :=
        fun there => kept.2 ⟨behind, there⟩
      rw [List.getElem?_append_right (by rwa [cleared filled]), cleared filled,
        second.agree (back filled) _ keptThere, List.getElem?_drop, Nat.add_sub_cancel' behind]

end Parts

/-! ## The slots of a record -/

section Fields

variable {width : Nat}

/-- The slot of a field, if it has one. -/
def Format.slots : Format → List Slot
  | .slotted item => [⟨0, item.width⟩]
  | _ => []

theorem Format.clears_clearAbsent {format : Format} (fixed : format.width? = some width) :
    Clears format.clearAbsent width format.slots := by
  cases format with
  | slotted item =>
      cases fixed
      have free {bytes : List UInt8} {index : Nat} :
          index ∈ freeRegion (slotted item).slots bytes ↔
            bytes.take 4 = [0, 0, 0, 0] ∧ 4 ≤ index ∧ index < 4 + item.width := by
        simp [mem_freeRegion_iff, slots, Slot.Free, Slot.tag]
      constructor
      case inside => simp [slots]
      case length_eq => exact (slotted item).length_clearAbsent
      case zero_of_free =>
        intro bytes filled index isFree
        obtain ⟨zeros, lower, upper⟩ := free.mp isFree
        have tagLength : (bytes.take 4).length = 4 := List.length_take_of_le (by omega)
        rw [clearAbsent, if_pos zeros, List.getElem?_append_right (by omega), tagLength,
          List.getElem?_replicate_of_lt (by omega)]
      case agree =>
        intro bytes filled index kept
        rw [clearAbsent]
        split
        · next zeros =>
            have tagLength : (bytes.take 4).length = 4 := List.length_take_of_le (by omega)
            by_cases inTag : index < 4
            · rw [List.getElem?_append_left (by omega), List.getElem?_take_of_lt inTag]
            · have behind : bytes.length ≤ index := by
                rw [free] at kept
                by_contra inSlot
                exact kept ⟨zeros, by omega, by omega⟩
              rw [List.getElem?_eq_none behind, List.getElem?_eq_none]
              simp only [List.length_append, tagLength, List.length_replicate]
              omega
        · rfl
  | scalar | flag | accountState | nonzero =>
      exact clears_without_slots width
  | tagged | text | pairs => cases fixed

namespace Layout

variable {Description : Type} {clearField : Description → List UInt8 → List UInt8}
variable {fieldWidth? : Description → Option Nat} {fieldSlots : Description → List Slot}

/-- The slots of the fields.  Where a field begins is known only behind fields of fixed width. -/
def slots (fieldSlots : Description → List Slot) (fieldWidth? : Description → Option Nat) :
    Layout Description → List Slot
  | [] => []
  | field :: rest =>
      match fieldWidth? field.type with
      | some width =>
          fieldSlots field.type ++ (slots fieldSlots fieldWidth? rest).map (Slot.shift · width)
      | none => []

theorem clears_clearAbsent
    (each : ∀ type width, fieldWidth? type = some width →
      Clears (clearField type) width (fieldSlots type))
    {layout : Layout Description} (fixed : layout.width? fieldWidth? = some width) :
    Clears (layout.clearAbsent clearField fieldWidth?) width
      (layout.slots fieldSlots fieldWidth?) := by
  induction layout generalizing width with
  | nil =>
      cases fixed
      exact clears_without_slots 0
  | cons field fields ih =>
      simp only [width?, Option.bind_eq_bind, Option.bind_eq_some_iff, Option.some.injEq] at fixed
      obtain ⟨first, firstFixed, others, othersFixed, rfl⟩ := fixed
      simp only [clearAbsent, slots, firstFixed]
      exact (each field.type first firstFixed).append (ih othersFixed)

end Layout

/-- The slots of a field. -/
def FieldType.slots : FieldType → List Slot
  | .plain format => format.slots
  | .group fields => fields.slots Format.slots Format.width?

theorem FieldType.clears_clearAbsent {type : FieldType} (fixed : type.width? = some width) :
    Clears type.clearAbsent width type.slots := by
  cases type with
  | plain format => exact Format.clears_clearAbsent fixed
  | group fields => exact Layout.clears_clearAbsent (fun _ _ => Format.clears_clearAbsent) fixed

namespace Record

variable {α : Type} [Record α]

/-- The slots of a record. -/
def slots (α : Type) [Record α] : List Slot := (layout α).slots FieldType.slots FieldType.width?

theorem clears_clearAbsent (fixed : width? α = some width) :
    Clears (clearAbsent α) width (slots α) :=
  Layout.clears_clearAbsent (fun _ _ => FieldType.clears_clearAbsent) fixed

end Record

end Fields

/-! ## Byte strings that are the same when cleared -/

variable {clear : List UInt8 → List UInt8} {width : Nat} {slots : List Slot}
variable {bytes left right : List UInt8}

/-- Whether no slot lies over the tag of another. -/
def TagsClear (slots : List Slot) : Prop :=
  ∀ slot ∈ slots, ∀ other ∈ slots,
    slot.start ≤ other.start ∨ other.start + 4 + other.width ≤ slot.start

instance (slots : List Slot) : Decidable (TagsClear slots) :=
  inferInstanceAs (Decidable (∀ slot ∈ slots, ∀ other ∈ slots, _))

/-- Byte strings that agree outside free bytes have the same tags. -/
theorem tag_eq_of_agreeOutside (tagsClear : TagsClear slots)
    (agree : AgreeOutside (freeRegion slots bytes) left right) {slot : Slot}
    (member : slot ∈ slots) : slot.tag left = slot.tag right := by
  apply List.ext_getElem?
  intro index
  rw [Slot.tag, Slot.tag, List.getElem?_take, List.getElem?_take]
  split
  · next inTag =>
      rw [List.getElem?_drop, List.getElem?_drop]
      apply agree
      intro free
      obtain ⟨other, otherMember, -, lower, upper⟩ := free
      have apart := tagsClear slot member other otherMember
      omega
  · rfl

/-- Two byte strings are the same when cleared just if they agree outside the free bytes. -/
theorem Clears.eq_iff (clears : Clears clear width slots) (tagsClear : TagsClear slots)
    (leftFilled : left.length = width) (rightFilled : right.length = width) :
    clear left = clear right ↔ AgreeOutside (freeRegion slots left) left right := by
  have leftKept := clears.agree leftFilled
  have rightKept := clears.agree rightFilled
  constructor
  · intro same
    have sameFree : freeRegion slots left = freeRegion slots right := by
      apply freeRegion_congr
      intro slot member index
      apply Slot.free_congr
      calc
        slot.tag left = slot.tag (clear left) :=
          (tag_eq_of_agreeOutside tagsClear leftKept member).symm
        _ = slot.tag (clear right) := by rw [same]
        _ = slot.tag right := tag_eq_of_agreeOutside tagsClear rightKept member
    intro index kept
    rw [← leftKept index kept, same, rightKept index (sameFree ▸ kept)]
  · intro agree
    have sameFree : freeRegion slots left = freeRegion slots right := by
      apply freeRegion_congr
      intro slot member index
      exact Slot.free_congr (tag_eq_of_agreeOutside tagsClear agree member)
    apply List.ext_getElem?
    intro index
    by_cases free : index ∈ freeRegion slots left
    · rw [clears.zero_of_free leftFilled index free,
        clears.zero_of_free rightFilled index (sameFree ▸ free)]
    · rw [leftKept index free, rightKept index (sameFree ▸ free), agree index free]

end TokenAccounts
