import TokenAccounts.Field.Layout

/-!
# Extensions that point elsewhere

Where metadata or group data of a mint is held, and who may move it.
-/

namespace TokenAccounts

/-- The account that holds the metadata of the mint. -/
structure MetadataPointer where
  authority : Option Address
  metadataAddress : Option Address
  deriving DecidableEq, Repr

instance : Record MetadataPointer where
  layout := [
    .plain "authority" (.nonzero .address),
    .plain "metadataAddress" (.nonzero .address)]
  toValues record := (record.authority, record.metadataAddress, ())
  ofValues := fun (authority, metadataAddress, ()) =>
    ⟨authority, metadataAddress⟩
  ofValues_toValues _ := rfl
  toValues_ofValues _ := rfl

/-- The account that holds the group configuration of the mint. -/
structure GroupPointer where
  authority : Option Address
  groupAddress : Option Address
  deriving DecidableEq, Repr

instance : Record GroupPointer where
  layout := [
    .plain "authority" (.nonzero .address),
    .plain "groupAddress" (.nonzero .address)]
  toValues record := (record.authority, record.groupAddress, ())
  ofValues := fun (authority, groupAddress, ()) =>
    ⟨authority, groupAddress⟩
  ofValues_toValues _ := rfl
  toValues_ofValues _ := rfl

/-- The account that holds the group membership of the mint. -/
structure GroupMemberPointer where
  authority : Option Address
  memberAddress : Option Address
  deriving DecidableEq, Repr

instance : Record GroupMemberPointer where
  layout := [
    .plain "authority" (.nonzero .address),
    .plain "memberAddress" (.nonzero .address)]
  toValues record := (record.authority, record.memberAddress, ())
  ofValues := fun (authority, memberAddress, ()) =>
    ⟨authority, memberAddress⟩
  ofValues_toValues _ := rfl
  toValues_ofValues _ := rfl

end TokenAccounts
