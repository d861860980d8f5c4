import TokenAccounts.Extension.Kind

/-!
# Extensions that a mint asks of its accounts

Some extensions of a mint only work if every token account of the mint carries a matching
extension from the start.
-/

namespace TokenAccounts

namespace ExtensionKind

/-- What a token account has to carry because its mint carries an extension of this kind. -/
def requiredOfAccount? : ExtensionKind → Option ExtensionKind
  | .transferFeeConfig => some .transferFeeAmount
  | .nonTransferable => some .nonTransferableAccount
  | .transferHook => some .transferHookAccount
  | .pausable => some .pausableAccount
  | .permissionedBurn => some .permissionedBurnAccount
  | _ => none

end ExtensionKind

/-- What is required of a token account, when one more type is looked at: what the type asks for
comes last, unless something before it asked for the same. -/
def takeUp (required : List ExtensionKind) (type : ExtensionType) : List ExtensionKind :=
  match type.kind?.bind ExtensionKind.requiredOfAccount? with
  | some kind => if kind ∈ required then required else required ++ [kind]
  | none => required

/-- Everything that a token account has to carry because of the extensions of its mint, each once
and in the order of the first extension that asks for it. -/
def requiredOfAccount (types : List ExtensionType) : List ExtensionKind := types.foldl takeUp []

end TokenAccounts
