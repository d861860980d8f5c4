/-!
# Account states and account types

The one-byte enumerations of the account format.  Each has a code, which is what the bytes
hold, and a name, which is what messages and text show.  Main statements: a code read back is
the value it was written from, and a code that reads as a value is that value's code.
-/

namespace TokenAccounts

/-- How far a token account may be used. -/
inductive AccountState where
  | uninitialized
  | initialized
  | frozen
  deriving DecidableEq, Repr

namespace AccountState

/-- The byte that stands for a state. -/
def code : AccountState → UInt8
  | .uninitialized => 0
  | .initialized => 1
  | .frozen => 2

def name : AccountState → String
  | .uninitialized => "Uninitialized"
  | .initialized => "Initialized"
  | .frozen => "Frozen"

/-- Every state, in the order of the codes. -/
def all : List AccountState := [.uninitialized, .initialized, .frozen]

def ofCode? (code : UInt8) : Option AccountState :=
  all.find? fun state => state.code == code

def ofName? (name : String) : Option AccountState :=
  all.find? fun state => state.name == name

@[simp] theorem ofCode?_code (state : AccountState) : ofCode? state.code = some state := by
  cases state <;> rfl

theorem code_of_ofCode? {code : UInt8} {state : AccountState}
    (found : ofCode? code = some state) : state.code = code := by
  simpa using List.find?_some found

@[simp] theorem ofName?_name (state : AccountState) : ofName? state.name = some state := by
  cases state <;> rfl

end AccountState

/-- What the tag byte of an extended account declares it to be. -/
inductive AccountType where
  | uninitialized
  | mint
  | account
  deriving DecidableEq, Repr

namespace AccountType

/-- The tag byte that stands for a type. -/
def code : AccountType → UInt8
  | .uninitialized => 0
  | .mint => 1
  | .account => 2

def name : AccountType → String
  | .uninitialized => "Uninitialized"
  | .mint => "Mint"
  | .account => "Account"

/-- Every type, in the order of the codes. -/
def all : List AccountType := [.uninitialized, .mint, .account]

def ofCode? (code : UInt8) : Option AccountType :=
  all.find? fun type => type.code == code

def ofName? (name : String) : Option AccountType :=
  all.find? fun type => type.name == name

@[simp] theorem ofCode?_code (type : AccountType) : ofCode? type.code = some type := by
  cases type <;> rfl

theorem code_of_ofCode? {code : UInt8} {type : AccountType}
    (found : ofCode? code = some type) : type.code = code := by
  simpa using List.find?_some found

@[simp] theorem ofName?_name (type : AccountType) : ofName? type.name = some type := by
  cases type <;> rfl

end AccountType

/-- The two kinds of account that can carry extensions. -/
inductive AccountKind where
  | mint
  | token
  deriving DecidableEq, Repr

/-- The tag of an extended account of this kind, and the type of the extensions it may hold. -/
def AccountKind.type : AccountKind → AccountType
  | .mint => .mint
  | .token => .account

end TokenAccounts
