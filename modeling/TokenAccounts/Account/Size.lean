import TokenAccounts.Base.Kind
import TokenAccounts.Base.Multisig
import TokenAccounts.Extension.Entries

/-!
# Account lengths

How long an account is, from the extensions it carries or from their types alone.  An account
without a list of extensions is as long as its base record.  With a list, even an empty one, the
tag of the account follows where the longer base record ends, and the entries follow the tag.  No
such account is ever as long as a multisignature account.
-/

namespace TokenAccounts

namespace AccountLayout

/-- Where the tag of an extended account is, whatever its kind. -/
def tagIndex : Nat := 165

/-- Where the entries of an extended account start. -/
def entriesStart : Nat := 166

/-- The length of an account that would otherwise be as long as a multisignature account.  The
two bytes it grows by are too few for an entry. -/
def avoidMultisig (length : Nat) : Nat :=
  if length = Multisig.length then length + 2 else length

/-- The length of an account whose list of extensions is given. -/
def length (kind : AccountKind) : Option (List Extension) → Nat
  | none => kind.baseLength
  | some extensions => avoidMultisig (entriesStart + Extension.totalSize extensions)

/-- An extension of the given type must belong to accounts of this kind. -/
def checkBelongs (kind : AccountKind) (type : ExtensionType) : Except Error Unit :=
  if type.accountType = kind.type then .ok ()
  else .error (.invalidExtensionAccountType type kind.type)

/-- The length of the entry of an extension of the given type, if every one is equally long. -/
def entryLength (type : ExtensionType) : Except Error Nat :=
  match type.fixedLength? with
  | some length => .ok (Entry.headerLength + length)
  | none => .error (.variableSizeExtension type)

/-- What a type adds to the length of the entries: nothing if it was seen before. -/
def addedLength (seen : List ExtensionType) (type : ExtensionType) : Except Error Nat :=
  if type ∈ seen then .ok 0 else entryLength type

/-- The length of the entries of the given types, one entry for each type that was not seen
before. -/
def entriesLength (kind : AccountKind) : (seen types : List ExtensionType) → Except Error Nat
  | _, [] => pure 0
  | seen, type :: rest => do
      checkBelongs kind type
      let first ← addedLength seen type
      let others ← entriesLength kind (type :: seen) rest
      pure (first + others)

/-- The length of an account that carries one extension of each of the given types. -/
def lengthOfTypes (kind : AccountKind) (types : List ExtensionType) : Except Error Nat :=
  if types.isEmpty then pure kind.baseLength
  else do
    let entries ← entriesLength kind [] types
    pure (avoidMultisig (entriesStart + entries))

end AccountLayout

end TokenAccounts
