import TokenAccounts.Base.Mint
import TokenAccounts.Base.TokenAccount

/-!
# Base records by kind of account

Each kind of account has a base record of fixed length at its front.
-/

namespace TokenAccounts

namespace AccountKind

/-- The base record of accounts of this kind. -/
@[reducible] def Base : AccountKind → Type
  | .mint => Mint
  | .token => TokenAccount

instance record : (kind : AccountKind) → Record kind.Base
  | .mint => inferInstanceAs (Record Mint)
  | .token => inferInstanceAs (Record TokenAccount)

instance decidableEq : (kind : AccountKind) → DecidableEq kind.Base
  | .mint => inferInstanceAs (DecidableEq Mint)
  | .token => inferInstanceAs (DecidableEq TokenAccount)

/-- The length of the base record. -/
def baseLength : AccountKind → Nat
  | .mint => 82
  | .token => 165

/-- The base record is as long as its fields together. -/
theorem width?_base (kind : AccountKind) : Record.width? kind.Base = some kind.baseLength := by
  cases kind <;> rfl

end AccountKind

end TokenAccounts
