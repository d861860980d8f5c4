import TokenAccounts.Field.Layout

/-!
# Mints

The base record of a mint, which lies at the front of its account.
-/

namespace TokenAccounts

/-- A kind of token. It has a supply, and may have authorities that issue more of it and freeze
accounts. -/
structure Mint where
  /-- Who may issue tokens; with nobody, the supply is fixed. -/
  mintAuthority : Option Address
  supply : UInt64
  /-- How many decimal places an amount is shown with. -/
  decimals : UInt8
  isInitialized : Bool
  freezeAuthority : Option Address
  deriving DecidableEq, Repr

instance : Record Mint where
  layout := [
    .plain "mintAuthority" (.slotted .address),
    .plain "supply" .u64,
    .plain "decimals" .u8,
    .plain "isInitialized" .flag,
    .plain "freezeAuthority" (.slotted .address)]
  toValues record := (record.mintAuthority, record.supply, record.decimals,
    record.isInitialized, record.freezeAuthority, ())
  ofValues := fun (mintAuthority, supply, decimals, isInitialized, freezeAuthority, ()) =>
    ⟨mintAuthority, supply, decimals, isInitialized, freezeAuthority⟩
  ofValues_toValues _ := rfl
  toValues_ofValues _ := rfl

end TokenAccounts
