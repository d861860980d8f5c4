import TokenAccounts.Account.Size

/-!
# Accounts with extensions

A mint or token account is a base record and, if the account is extended, a list of extensions.
This module checks and reads the data of an account, writes it, and looks at and changes single
extensions.
-/

namespace TokenAccounts

/-- A mint or token account.  An account that is not extended has no list; an extended account
may have an empty one. -/
structure Account (kind : AccountKind) where
  base : kind.Base
  extensions : Option (List Extension)
  deriving DecidableEq

namespace Account

variable {kind : AccountKind}

/-! ## Checking and reading -/

/-- The tag of an extended account must be there and be that of the kind, and the bytes of a mint
between its base record and the tag must be zero. -/
def checkTag (kind : AccountKind) (data : List UInt8) : Except Error Unit :=
  match data[AccountLayout.tagIndex]? with
  | none => .error (.invalidAccountSize data.length)
  | some tag =>
      if tag = AccountType.uninitialized.code then .error .accountNotInitialized
      else if tag ≠ kind.type.code then .error (.accountTypeMismatch kind.type tag)
      else if ((data.take AccountLayout.tagIndex).drop kind.baseLength).any (· != 0) then
        .error .invalidPadding
      else .ok ()

/-- Whether data can be that of an account of this kind, before any record is read. -/
def check (kind : AccountKind) (data : List UInt8) : Except Error Unit :=
  if data.length < kind.baseLength ∨ data.length = Multisig.length then
    .error (.invalidAccountSize data.length)
  else if data.length = kind.baseLength then .ok ()
  else checkTag kind data

/-- The base record at the front of data; what follows it is ignored. -/
def unpackBase (kind : AccountKind) (data : List UInt8) : Except Error kind.Base :=
  if data.length < kind.baseLength then .error (.invalidAccountSize data.length)
  else (Record.read : Reader kind.Base).outcome (data.take kind.baseLength)

/-- The account that data holds. -/
def unpack (kind : AccountKind) (data : List UInt8) : Except Error (Account kind) := do
  check kind data
  let base ← unpackBase kind data
  if data.length = kind.baseLength then pure ⟨base, none⟩
  else do
    let extensions ← Extension.unpackAll (data.drop AccountLayout.entriesStart)
    pure ⟨base, some extensions⟩

/-- The account that data holds, if its owner is the given program. -/
def unpackOwned (kind : AccountKind) (data : List UInt8) (owner program : Address) :
    Except Error (Account kind) :=
  if owner = program then unpack kind data else .error .invalidAccountOwner

/-- The value bytes of the first extension of a type, without reading the account. -/
def findBytes (kind : AccountKind) (data : List UInt8) (type : ExtensionType) :
    Except Error (List UInt8) := do
  AccountLayout.checkBelongs kind type
  check kind data
  if data.length = kind.baseLength then throw .extensionNotFound
  else Extension.findBytes (data.drop AccountLayout.entriesStart) type

/-! ## Writing -/

/-- How long the account is. -/
def size (account : Account kind) : Nat := AccountLayout.length kind account.extensions

/-- Bytes with zeros behind them up to a length. -/
def padTo (length : Nat) (bytes : List UInt8) : List UInt8 :=
  bytes ++ List.replicate (length - bytes.length) 0

/-- The data of the account. -/
def pack (account : Account kind) : Except Error (List UInt8) :=
  match account.extensions with
  | none => .ok (Record.write account.base)
  | some extensions => do
      let entries ← Extension.packAll extensions
      let front := padTo AccountLayout.tagIndex (Record.write account.base) ++ [kind.type.code]
      let data := front ++ entries
      pure (padTo (AccountLayout.avoidMultisig data.length) data)

/-! ## Single extensions -/

/-- The extensions in order; none if there is no list. -/
def list (account : Account kind) : List Extension := account.extensions.getD []

/-- The registered types of the extensions, in order. -/
def types (account : Account kind) : List ExtensionType := account.list.filterMap Extension.type?

/-- The first extension of a kind. -/
def get (account : Account kind) (wanted : ExtensionKind) : Except Error wanted.Value := do
  AccountLayout.checkBelongs kind (.holding wanted)
  match account.list.findSome? (Extension.value? wanted) with
  | some value => pure value
  | none => throw .extensionNotFound

/-- A value in its place in an account: what it is, and the account with another value in the same
place. -/
structure Place (kind : AccountKind) (wanted : ExtensionKind) where
  value : wanted.Value
  put : wanted.Value → Account kind

/-- The first value of a kind in a list, and the list with another value in its place. -/
def findPlace? (wanted : ExtensionKind) :
    List Extension → Option (wanted.Value × (wanted.Value → List Extension))
  | [] => none
  | extension :: rest =>
      match extension.value? wanted with
      | some value => some (value, fun other => .typed wanted other :: rest)
      | none => (findPlace? wanted rest).map fun (value, put) =>
          (value, fun other => extension :: put other)

/-- The place of the first extension of a kind, which must be there. -/
def place (account : Account kind) (wanted : ExtensionKind) : Except Error (Place kind wanted) := do
  AccountLayout.checkBelongs kind (.holding wanted)
  match account.extensions.bind (findPlace? wanted) with
  | some (value, put) =>
      pure ⟨value, fun other => { account with extensions := some (put other) }⟩
  | none => throw .extensionNotFound

/-- Put a value in the place of the first extension of its kind, which must be there. -/
def set (account : Account kind) (wanted : ExtensionKind) (value : wanted.Value) :
    Except Error (Account kind) := do
  let found ← account.place wanted
  pure (found.put value)

/-- Put an extension at the end of the list, whatever it is. -/
def push (account : Account kind) (extension : Extension) : Account kind :=
  { account with extensions := some (account.list ++ [extension]) }

/-- Put a value at the end of the list, if its kind belongs to this kind of account: what comes of
it, and the account afterwards. -/
def pushValue (account : Account kind) (wanted : ExtensionKind) (value : wanted.Value) :
    Except Error Unit × Account kind :=
  match AccountLayout.checkBelongs kind (.holding wanted) with
  | .ok () => (.ok (), account.push (.typed wanted value))
  | .error error => (.error error, account)

/-- The account with a value at the end of the list, if its kind belongs to this kind of account. -/
def add (account : Account kind) (wanted : ExtensionKind) (value : wanted.Value) :
    Except Error (Account kind) :=
  let (outcome, changed) := account.pushValue wanted value
  outcome.map fun _ => changed

/-- Whether two accounts are equal where numbers are compared as numbers. -/
def agree (left right : Account kind) : Bool :=
  Record.agree left.base right.base &&
    match left.extensions, right.extensions with
    | none, none => true
    | some lefts, some rights =>
        lefts.length == rights.length && (lefts.zip rights).all fun (left, right) =>
          left.agree right
    | _, _ => false

/-- An account as it is read back: zeros where an extension has an optional value become its
absence. -/
def normalize (account : Account kind) : Account kind :=
  { account with extensions := account.extensions.map (·.map Extension.normalize) }

end Account

/-- A mint with its extensions. -/
abbrev MintAccount := Account .mint

end TokenAccounts
