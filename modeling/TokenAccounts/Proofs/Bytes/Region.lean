import Mathlib.Data.Nat.Basic
import Mathlib.Order.Interval.Set.Defs

/-!
# Byte strings that differ in one region

What is said here of two byte strings is that they have the same byte at every position outside a
region, which may be any set of positions.
-/

namespace TokenAccounts

/-- Whether two byte strings have the same byte, or both have none, at every position outside a
region. -/
def AgreeOutside (region : Set Nat) (left right : List UInt8) : Prop :=
  ∀ index, index ∉ region → left[index]? = right[index]?

/-- Byte strings that differ in one part, which is equally long in both, agree outside that part. -/
theorem agreeOutside_append (front back : List UInt8) {left right : List UInt8}
    (same : left.length = right.length) :
    AgreeOutside (Set.Ico front.length (front.length + right.length))
      (front ++ left ++ back) (front ++ right ++ back) := by
  intro index outside
  rw [List.append_assoc, List.append_assoc]
  by_cases earlier : index < front.length
  · rw [List.getElem?_append_left earlier, List.getElem?_append_left earlier]
  · have behindFront : front.length ≤ index := Nat.le_of_not_lt earlier
    have behind : front.length + right.length ≤ index :=
      Nat.le_of_not_lt fun inside => outside ⟨behindFront, inside⟩
    have behindRight : right.length ≤ index - front.length := by omega
    have behindLeft : left.length ≤ index - front.length := same ▸ behindRight
    rw [List.getElem?_append_right behindFront, List.getElem?_append_right behindFront,
      List.getElem?_append_right behindLeft, List.getElem?_append_right behindRight, same]

end TokenAccounts
