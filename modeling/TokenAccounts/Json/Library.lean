import TokenAccounts.Decimal.Binary64

/-!
# JSON libraries

How plain values are spelled, how fields and variants are told apart by name, and how all this is
written as text and read again is left to a library.  This module says what a library offers, which
forms are written with it, and which laws it keeps.  The forms of records and accounts are made of
what a library offers, whichever it is.
-/

namespace TokenAccounts

/-- What is needed to write values as JSON and to read them. -/
structure JsonLibrary where
  /-- What a text holds, with its numbers as they are spelled and its members in their order. -/
  Form : Type
  /-- The text of a form. -/
  write : Form → String
  /-- The form that a text holds. -/
  read? : String → Option Form
  /-- The form of an absent value, and of a record without fields. -/
  null : Form
  ofBool : Bool → Form
  ofInteger : Int → Form
  ofDouble : Binary64 → Form
  ofText : String → Form
  ofAddress : Address → Form
  ofList : List Form → Form
  /-- A record of fields that have names. -/
  ofFields : List (String × Form) → Form
  /-- One of several variants, with what it holds, if it holds anything. -/
  ofVariant : String → Option Form → Form
  /-- What stands in place of an optional value, unless it is absent. -/
  present? : Form → Option Form
  /-- A record without fields. -/
  toUnit? : Form → Option Unit
  toBool? : Form → Option Bool
  /-- A whole number that is not below the first and not above the second number. -/
  toInteger? : Int → Int → Form → Option Int
  toDouble? : Form → Option Binary64
  toText? : Form → Option String
  toAddress? : Form → Option Address
  toList? : Form → Option (List Form)
  /-- The fields of a record in the order of the given names.  A field that is left out is read as
  an absent value. -/
  toFields? : List String → Form → Option (List Form)
  /-- The name of a variant, and what it holds, if it holds anything. -/
  toVariant? : Form → Option (String × Option Form)
  /-- The text that spells bytes in base 64. -/
  spellBytes : List UInt8 → String
  /-- The bytes that a text spells in base 64. -/
  unspellBytes? : String → Option (List UInt8)

namespace JsonLibrary

/-- Whether a number has a place in a word of 64 bits, signed or unsigned. -/
def IsWord (number : Int) : Prop := -0x8000000000000000 ≤ number ∧ number ≤ 0xffffffffffffffff

/-- The forms that are written, where lists, records and variants are in one another no deeper than
a number says. -/
inductive Written (library : JsonLibrary) : Nat → library.Form → Prop
  | null {depth : Nat} : Written library depth library.null
  | bool {depth : Nat} (value : Bool) : Written library depth (library.ofBool value)
  | integer {depth : Nat} {number : Int} (word : IsWord number) :
      Written library depth (library.ofInteger number)
  | double {depth : Nat} (number : Binary64) : Written library depth (library.ofDouble number)
  | text {depth : Nat} (text : String) : Written library depth (library.ofText text)
  | address {depth : Nat} (address : Address) :
      Written library (depth + 1) (library.ofAddress address)
  | list {depth : Nat} {items : List library.Form}
      (each : ∀ item ∈ items, Written library depth item) :
      Written library (depth + 1) (library.ofList items)
  | fields {depth : Nat} {members : List (String × library.Form)}
      (each : ∀ member ∈ members, Written library depth member.2) :
      Written library (depth + 1) (library.ofFields members)
  | name {depth : Nat} (name : String) : Written library depth (library.ofVariant name none)
  | variant {depth : Nat} (name : String) {content : library.Form}
      (written : Written library depth content) :
      Written library (depth + 1) (library.ofVariant name (some content))

/-- How deep lists, records and variants may be in one another for a text to be read. -/
def maxDepth : Nat := 127

/-- What a library promises.  Nothing is said of how a double with a numeral is read, which may come
back as another one. -/
structure Lawful (library : JsonLibrary) : Prop where
  /-- The text that is written of a form holds that form. -/
  read?_write : ∀ form, library.Written maxDepth form →
    library.read? (library.write form) = some form
  /-- A record without fields is written and read as null. -/
  toUnit?_null : library.toUnit? library.null = some ()
  toBool?_ofBool : ∀ value, library.toBool? (library.ofBool value) = some value
  /-- A number is read by every type that has it in its range. -/
  toInteger?_ofInteger : ∀ low high number, IsWord number → low ≤ number → number ≤ high →
    library.toInteger? low high (library.ofInteger number) = some number
  /-- Every character of a text is read back, also those that must be escaped. -/
  toText?_ofText : ∀ text, library.toText? (library.ofText text) = some text
  toAddress?_ofAddress : ∀ address, library.toAddress? (library.ofAddress address) = some address
  /-- The items of a list keep their order. -/
  toList?_ofList : ∀ items, library.toList? (library.ofList items) = some items
  /-- Fields are found by their names, if no two have the same. -/
  toFields?_ofFields : ∀ names members, names.Nodup → members.map Prod.fst = names →
    library.toFields? names (library.ofFields members) = some (members.map Prod.snd)
  /-- A variant is told by its name. -/
  toVariant?_ofVariant : ∀ name content,
    library.toVariant? (library.ofVariant name content) = some (name, content)
  /-- The spelling of bytes in base 64 spells them. -/
  unspellBytes?_spellBytes : ∀ bytes, library.unspellBytes? (library.spellBytes bytes) = some bytes
  /-- Null stands for an absent value. -/
  present?_null : library.present? library.null = none
  /-- Nothing but null stands for an absent value. -/
  present?_of_ne_null : ∀ form, form ≠ library.null → library.present? form = some form
  /-- Null is no number, no text, no address and no list. -/
  toInteger?_null : ∀ low high, library.toInteger? low high library.null = none
  toDouble?_null : library.toDouble? library.null = none
  toText?_null : library.toText? library.null = none
  toAddress?_null : library.toAddress? library.null = none
  toList?_null : library.toList? library.null = none
  /-- A double that is no number or infinite has no numeral and is written as null. -/
  ofDouble_eq_null : ∀ number : Binary64, number.isNaN = true ∨ number.isInfinite = true →
    library.ofDouble number = library.null

end JsonLibrary

end TokenAccounts
