import TokenAccounts.Field.Layout

/-!
# Token accounts

The base record of an account that holds tokens of one mint.
-/

namespace TokenAccounts

/-- A holding of tokens of one mint by one owner. -/
structure TokenAccount where
  mint : Address
  owner : Address
  amount : UInt64
  /-- Who may spend the delegated amount besides the owner. -/
  delegate : Option Address
  state : AccountState
  /-- For an account that wraps the native coin, the reserve that exempts it from rent. -/
  isNative : Option UInt64
  delegatedAmount : UInt64
  closeAuthority : Option Address
  deriving DecidableEq, Repr

instance : Record TokenAccount where
  layout := [
    .plain "mint" (.blob .address),
    .plain "owner" (.blob .address),
    .plain "amount" .u64,
    .plain "delegate" (.slotted .address),
    .plain "state" .accountState,
    .plain "isNative" (.slotted .u64),
    .plain "delegatedAmount" .u64,
    .plain "closeAuthority" (.slotted .address)]
  toValues record := (record.mint, record.owner, record.amount, record.delegate, record.state,
    record.isNative, record.delegatedAmount, record.closeAuthority, ())
  ofValues := fun (mint, owner, amount, delegate, state, isNative, delegatedAmount,
    closeAuthority, ()) =>
    ⟨mint, owner, amount, delegate, state, isNative, delegatedAmount, closeAuthority⟩
  ofValues_toValues _ := rfl
  toValues_ofValues _ := rfl

namespace TokenAccount

/-- Whether the freeze authority has stopped the account. -/
def isFrozen (account : TokenAccount) : Bool := account.state = .frozen

/-- Whether the account wraps the native coin. -/
def isNativeCoin (account : TokenAccount) : Bool := account.isNative.isSome

end TokenAccount

end TokenAccounts
