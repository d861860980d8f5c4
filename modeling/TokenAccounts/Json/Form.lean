import TokenAccounts.Account.Basic
import TokenAccounts.Json.Library

/-!
# Records and accounts as JSON

The forms of records, extensions and accounts, whichever library builds and takes apart what they
consist of.  A record has its fields by name, and is null if it has none.  A field that need not
have a value is null without one.  An extension is a variant named after its kind.
-/

namespace TokenAccounts

/-- A type whose values have a form in every library. -/
class JsonForm (α : Type) where
  toForm (library : JsonLibrary) : α → library.Form
  ofForm? (library : JsonLibrary) : library.Form → Option α

namespace JsonLibrary

/-! ## Texts -/

section Texts

variable {α : Type} [JsonForm α]

/-- The JSON text of a value. -/
def toText (library : JsonLibrary) (value : α) : String :=
  library.write (JsonForm.toForm library value)

/-- The value that a JSON text holds. -/
def ofText? (library : JsonLibrary) (text : String) : Option α :=
  (library.read? text).bind (JsonForm.ofForm? library)

end Texts

/-! ## Parts -/

variable {α : Type} (library : JsonLibrary)

/-- Null, or a value. -/
def ofOption (toForm : α → library.Form) : Option α → library.Form
  | none => library.null
  | some value => toForm value

/-- Null, or a value. -/
def toOption? (ofForm? : library.Form → Option α) (form : library.Form) : Option (Option α) :=
  match library.present? form with
  | none => some none
  | some present => (ofForm? present).map some

/-- A list, each item of which is written in the same way. -/
def ofItems (toForm : α → library.Form) (items : List α) : library.Form :=
  library.ofList (items.map toForm)

/-- A list, each item of which is read in the same way. -/
def toItems? (ofForm? : library.Form → Option α) (form : library.Form) : Option (List α) := do
  let items ← library.toList? form
  items.mapM ofForm?

/-- One of several names. -/
def ofName (name : String) : library.Form := library.ofVariant name none

/-- One of several names: alone, or as the name of a null. -/
def toName? (form : library.Form) : Option String := do
  match ← library.toVariant? form with
  | (name, none) => some name
  | (name, some content) => (library.toUnit? content).map fun _ => name

def ofByte (byte : UInt8) : library.Form := library.ofInteger byte.toNat

def toByte? (form : library.Form) : Option UInt8 :=
  (library.toInteger? 0 0xff form).map fun number => UInt8.ofNat number.toNat

/-- Keys and ciphertexts are written as texts that spell them, and bytes of no particular meaning as
numbers. -/
def ofBlob {kind : BlobKind} (blob : Blob kind) : library.Form :=
  match kind with
  | .address => library.ofAddress blob
  | .raw _ => library.ofItems library.ofByte blob.bytes
  | .elGamalPubkey => library.ofText (library.spellBytes blob.bytes)
  | .elGamalCiphertext => library.ofText (library.spellBytes blob.bytes)
  | .aeCiphertext => library.ofText (library.spellBytes blob.bytes)

/-- The bytes that a text spells, if they are as many as they should be. -/
def toSpelled? (kind : BlobKind) (form : library.Form) : Option (Blob kind) := do
  let text ← library.toText? form
  let bytes ← library.unspellBytes? text
  Blob.ofBytes? kind bytes

def toBlob? : (kind : BlobKind) → library.Form → Option (Blob kind)
  | .address, form => library.toAddress? form
  | .raw width, form => (library.toItems? library.toByte? form).bind (Blob.ofBytes? (.raw width))
  | .elGamalPubkey, form => library.toSpelled? .elGamalPubkey form
  | .elGamalCiphertext, form => library.toSpelled? .elGamalCiphertext form
  | .aeCiphertext, form => library.toSpelled? .aeCiphertext form

def ofPair (pair : String × String) : library.Form :=
  library.ofItems library.ofText [pair.1, pair.2]

def toPair? (form : library.Form) : Option (String × String) := do
  match ← library.toItems? library.toText? form with
  | [key, text] => some (key, text)
  | _ => none

end JsonLibrary

/-! ## Fields -/

namespace Scalar

def toForm (library : JsonLibrary) : (scalar : Scalar) → scalar.Value → library.Form
  | .u8, value => library.ofByte value
  | .u16, value => library.ofInteger value.toNat
  | .u32, value => library.ofInteger value.toNat
  | .u64, value => library.ofInteger value.toNat
  | .i16, value => library.ofInteger value.toInt
  | .i64, value => library.ofInteger value.toInt
  | .float64, value => library.ofDouble value
  | .blob _, value => library.ofBlob value

def ofForm? (library : JsonLibrary) : (scalar : Scalar) → library.Form → Option scalar.Value
  | .u8, form => library.toByte? form
  | .u16, form => (library.toInteger? 0 0xffff form).map fun number => UInt16.ofNat number.toNat
  | .u32, form =>
      (library.toInteger? 0 0xffffffff form).map fun number => UInt32.ofNat number.toNat
  | .u64, form =>
      (library.toInteger? 0 0xffffffffffffffff form).map fun number => UInt64.ofNat number.toNat
  | .i16, form => (library.toInteger? (-0x8000) 0x7fff form).map Int16.ofInt
  | .i64, form =>
      (library.toInteger? (-0x8000000000000000) 0x7fffffffffffffff form).map Int64.ofInt
  | .float64, form => library.toDouble? form
  | .blob kind, form => library.toBlob? kind form

end Scalar

namespace Format

def toForm (library : JsonLibrary) : (format : Format) → format.Value → library.Form
  | .scalar item, value => item.toForm library value
  | .flag, value => library.ofBool value
  | .accountState, value => library.ofName value.name
  | .nonzero _, value => library.ofOption library.ofBlob value
  | .tagged item, value => library.ofOption (item.toForm library) value
  | .slotted item, value => library.ofOption (item.toForm library) value
  | .text, value => library.ofText value
  | .pairs, value => library.ofItems library.ofPair value

def ofForm? (library : JsonLibrary) : (format : Format) → library.Form → Option format.Value
  | .scalar item, form => item.ofForm? library form
  | .flag, form => library.toBool? form
  | .accountState, form => (library.toName? form).bind AccountState.ofName?
  | .nonzero kind, form => library.toOption? (library.toBlob? kind) form
  | .tagged item, form => library.toOption? (item.ofForm? library) form
  | .slotted item, form => library.toOption? (item.ofForm? library) form
  | .text, form => library.toText? form
  | .pairs, form => library.toItems? library.toPair? form

end Format

namespace Layout

variable {Description : Type} {Value : Description → Type}

/-- The values of a record's fields. -/
def ofForm? (library : JsonLibrary)
    (ofForm? : (type : Description) → library.Form → Option (Value type))
    (layout : Layout Description) (form : library.Form) : Option (layout.Values Value) := do
  let forms ← library.toFields? (layout.map Field.name) form
  layout.ofForms? ofForm? forms

end Layout

namespace FieldType

def toForm (library : JsonLibrary) : (type : FieldType) → type.Value → library.Form
  | .plain format, value => format.toForm library value
  | .group fields, values => library.ofFields (fields.toNamed (Format.toForm library) values)

def ofForm? (library : JsonLibrary) : (type : FieldType) → library.Form → Option type.Value
  | .plain format, form => format.ofForm? library form
  | .group fields, form => fields.ofForm? library (Format.ofForm? library) form

end FieldType

/-! ## Records and enumerations -/

/-- A record without fields is null. -/
def Record.toForm (library : JsonLibrary) {α : Type} [Record α] (record : α) : library.Form :=
  match (layout α).toNamed (FieldType.toForm library) (toValues record) with
  | [] => library.null
  | members => library.ofFields members

def Record.ofForm? (library : JsonLibrary) {α : Type} [Record α] (form : library.Form) :
    Option α :=
  let values : Option ((layout α).Values FieldType.Value) :=
    match layout α with
    | [] => library.toUnit? form
    | field :: rest => Layout.ofForm? library (FieldType.ofForm? library) (field :: rest) form
  values.map ofValues

instance {α : Type} [Record α] : JsonForm α where
  toForm library := Record.toForm library
  ofForm? library := Record.ofForm? library

instance : JsonForm AccountState where
  toForm library state := library.ofName state.name
  ofForm? library form := (library.toName? form).bind AccountState.ofName?

instance : JsonForm AccountType where
  toForm library type := library.ofName type.name
  ofForm? library form := (library.toName? form).bind AccountType.ofName?

instance : JsonForm ExtensionType where
  toForm library type := library.ofName type.name
  ofForm? library form := (library.toName? form).bind ExtensionType.ofName?

instance : JsonForm Multisig where
  toForm library multisig := library.ofFields [
    ("m", library.ofByte multisig.m),
    ("n", library.ofByte multisig.n),
    ("isInitialized", library.ofBool multisig.isInitialized),
    ("signers", library.ofItems library.ofAddress multisig.signers)]
  ofForm? library form := do
    match ← library.toFields? ["m", "n", "isInitialized", "signers"] form with
    | [m, n, isInitialized, signers] =>
        let m ← library.toByte? m
        let n ← library.toByte? n
        let isInitialized ← library.toBool? isInitialized
        let signers ← library.toItems? library.toAddress? signers
        some { m, n, isInitialized, signers }
    | _ => none

/-- Three fields are told by name alone; a key of the table comes with its name. -/
instance : JsonForm MetadataField where
  toForm library
    | .name => library.ofName "name"
    | .symbol => library.ofName "symbol"
    | .uri => library.ofName "uri"
    | .key key => library.ofVariant "key" (some (library.ofText key))
  ofForm? library form :=
    match library.toName? form with
    | some "name" => some .name
    | some "symbol" => some .symbol
    | some "uri" => some .uri
    | _ => do
        match ← library.toVariant? form with
        | ("key", some key) => (library.toText? key).map .key
        | _ => none

/-! ## Extensions and accounts -/

/-- A name with its first letter in lower case. -/
def lowerFirst (name : String) : String :=
  match name.toList with
  | [] => ""
  | first :: rest => String.ofList (first.toLower :: rest)

/-- The name of a kind among the variants. -/
def ExtensionKind.jsonName (kind : ExtensionKind) : String := lowerFirst kind.name

namespace Extension

/-- The name of an entry whose code has no kind. -/
def unparsedName : String := "unparsed"

def toForm (library : JsonLibrary) : Extension → library.Form
  | .typed kind value => library.ofVariant kind.jsonName (some (Record.toForm library value))
  | .unparsed code data => library.ofVariant unparsedName (some (library.ofFields [
      ("extensionType", Scalar.u16.toForm library code),
      ("data", library.ofItems library.ofByte data)]))

def ofForm? (library : JsonLibrary) (form : library.Form) : Option Extension := do
  match ← library.toVariant? form with
  | (name, some content) =>
      if name = unparsedName then
        match ← library.toFields? ["extensionType", "data"] content with
        | [code, data] =>
            let code ← Scalar.u16.ofForm? library code
            let data ← library.toItems? library.toByte? data
            some (.unparsed code data)
        | _ => none
      else
        let kind ← ExtensionKind.all.find? fun kind => kind.jsonName == name
        let value ← Record.ofForm? library content
        some (.typed kind value)
  | (_, none) => none

end Extension

instance : JsonForm Extension where
  toForm := Extension.toForm
  ofForm? := Extension.ofForm?

/-- An account without a list of extensions has null in its place. -/
instance {kind : AccountKind} : JsonForm (Account kind) where
  toForm library account := library.ofFields [
    ("base", Record.toForm library account.base),
    ("extensions",
      library.ofOption (library.ofItems (Extension.toForm library)) account.extensions)]
  ofForm? library form := do
    match ← library.toFields? ["base", "extensions"] form with
    | [base, extensions] =>
        let base ← Record.ofForm? library base
        let extensions ←
          library.toOption? (library.toItems? (Extension.ofForm? library)) extensions
        some ⟨base, extensions⟩
    | _ => none

end TokenAccounts
