import TokenAccounts.Bytes.Base64
import TokenAccounts.Json.Library
import TokenAccounts.Json.Number
import TokenAccounts.Json.Reading

/-!
# The standard JSON library

The library that is used when the program runs.  A record is an object with its fields in order,
and is also read from an array of all of them.  Names are matched exactly, unknown names are
skipped, and a name may not come twice.  A variant is an object with its name as the only one, or
the name alone.  An address is an array of its bytes, and other bytes are spelled in base 64.
-/

namespace TokenAccounts

namespace Json

/-! ## Plain values -/

def ofString (text : String) : Json := .string (piecesOf text)

def toString? : Json → Option String
  | .string pieces => textOf? pieces
  | _ => none

def toBool? : Json → Option Bool
  | .bool value => some value
  | _ => none

def toNull? : Json → Option Unit
  | .null => some ()
  | _ => none

def present? : Json → Option Json
  | .null => none
  | json => some json

def toItems? : Json → Option (List Json)
  | .array items => some items
  | _ => none

/-! ## Addresses -/

def ofByte (byte : UInt8) : Json := ofInt byte.toNat

def toByte? (json : Json) : Option UInt8 :=
  (json.toIntWithin? 0 0xff).map fun number => UInt8.ofNat number.toNat

def ofAddress (address : Address) : Json := .array (address.bytes.map ofByte)

def toAddress? (json : Json) : Option Address := do
  let items ← json.toItems?
  let bytes ← items.mapM toByte?
  Blob.ofBytes? .address bytes

/-! ## Names -/

/-- An object whose names are texts. -/
def ofMembers (members : List (String × Json)) : Json :=
  .object (members.map fun member => (piecesOf member.1, member.2))

/-- The members of an object, all of whose names must be texts. -/
def toMembers? : Json → Option (List (String × Json))
  | .object members => members.mapM fun member => do
      let name ← textOf? member.1
      some (name, member.2)
  | _ => none

/-- The value under a name, or null if there is none; the name may not come twice. -/
def memberOf? (members : List (String × Json)) (name : String) : Option Json :=
  match members.filter fun member => member.1 == name with
  | [] => some .null
  | [member] => some member.2
  | _ => none

/-- The values of the given fields. -/
def fieldsOf? (names : List String) : Json → Option (List Json)
  | .array items => if items.length = names.length then some items else none
  | json => do
      let members ← json.toMembers?
      names.mapM (memberOf? members)

def ofVariant (name : String) : Option Json → Json
  | none => ofString name
  | some content => ofMembers [(name, content)]

def toVariant? : Json → Option (String × Option Json)
  | .string pieces => (textOf? pieces).map fun name => (name, none)
  | json => do
      match ← json.toMembers? with
      | [(name, content)] => some (name, some content)
      | _ => none

end Json

/-- The library that is used when the program runs. -/
def JsonLibrary.standard : JsonLibrary where
  Form := Json
  write := Json.toText
  read? := Json.ofText?
  null := .null
  ofBool := .bool
  ofInteger := Json.ofInt
  ofDouble := Json.ofBinary64
  ofText := Json.ofString
  ofAddress := Json.ofAddress
  ofList := .array
  ofFields := Json.ofMembers
  ofVariant := Json.ofVariant
  present? := Json.present?
  toUnit? := Json.toNull?
  toBool? := Json.toBool?
  toInteger? := Json.toIntWithin?
  toDouble? := Json.toBinary64?
  toText? := Json.toString?
  toAddress? := Json.toAddress?
  toList? := Json.toItems?
  toFields? := Json.fieldsOf?
  toVariant? := Json.toVariant?
  spellBytes bytes := String.ofList (Base64.encode bytes)
  unspellBytes? text := Base64.decode? text.toList

end TokenAccounts
