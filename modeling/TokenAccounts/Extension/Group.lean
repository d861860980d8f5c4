import TokenAccounts.Field.Layout

/-!
# Groups of mints

A mint may stand for a group, and other mints may be its members.
-/

namespace TokenAccounts

/-- A group, with the number of its members and the most it may have. -/
structure TokenGroup where
  updateAuthority : Option Address
  mint : Address
  size : UInt64
  maxSize : UInt64
  deriving DecidableEq, Repr

instance : Record TokenGroup where
  layout := [
    .plain "updateAuthority" (.nonzero .address),
    .plain "mint" (.blob .address),
    .plain "size" .u64,
    .plain "maxSize" .u64]
  toValues record := (record.updateAuthority, record.mint, record.size, record.maxSize, ())
  ofValues := fun (updateAuthority, mint, size, maxSize, ()) =>
    ⟨updateAuthority, mint, size, maxSize⟩
  ofValues_toValues _ := rfl
  toValues_ofValues _ := rfl

/-- The number that the next member of the group gets, if there is room for one. -/
def TokenGroup.nextMemberNumber (group : TokenGroup) : Option UInt64 :=
  let next := group.size.toNat + 1
  if next < UInt64.size ∧ next ≤ group.maxSize.toNat then some (UInt64.ofNat next) else none

/-- A member of a group, with its number in the group. -/
structure TokenGroupMember where
  mint : Address
  group : Address
  memberNumber : UInt64
  deriving DecidableEq, Repr

instance : Record TokenGroupMember where
  layout := [
    .plain "mint" (.blob .address),
    .plain "group" (.blob .address),
    .plain "memberNumber" .u64]
  toValues record := (record.mint, record.group, record.memberNumber, ())
  ofValues := fun (mint, group, memberNumber, ()) =>
    ⟨mint, group, memberNumber⟩
  ofValues_toValues _ := rfl
  toValues_ofValues _ := rfl

end TokenAccounts
