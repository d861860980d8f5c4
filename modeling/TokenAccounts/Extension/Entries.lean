import TokenAccounts.Extension.Basic

/-!
# Lists of entries

Extensions lie in an account as entries, one after the other: a two-byte code, a two-byte length
and that many bytes of value.  The list ends at a code of 0 or where fewer than four bytes are
left.  Reading a list and looking for one entry each walk over the data by themselves.
-/

namespace TokenAccounts

/-- An entry as it lies in the data. -/
structure Entry where
  code : UInt16
  value : List UInt8
  deriving DecidableEq, Repr

namespace Entry

/-- The length of what stands in front of the value. -/
def headerLength : Nat := 4

/-- The longest value that an entry can declare. -/
def maxLength : Nat := 65535

/-- What stands in front of a value: its code and its length. -/
def header (code : UInt16) (length : Nat) : List UInt8 :=
  littleEndian 2 code.toNat ++ littleEndian 2 length

/-- The extension that an entry holds. -/
def unpack (entry : Entry) : Except Error Extension := Extension.unpack entry.code entry.value

/-- The bytes of an entry whose value has no more than the longest length. -/
def write (entry : Entry) : List UInt8 :=
  header entry.code entry.value.length ++ entry.value

end Entry

namespace Extension

/-- Read every extension in order.  The list ends at code 0 or where a header no longer fits. -/
def unpackAll (data : List UInt8) : Except Error (List Extension) :=
  match data with
  | codeLow :: codeHigh :: lengthLow :: lengthHigh :: rest =>
      let code := UInt16.ofNat (ofLittleEndian [codeLow, codeHigh])
      let length := ofLittleEndian [lengthLow, lengthHigh]
      if code = 0 then .ok []
      else if rest.length < length then
        .error (.truncatedExtensionData code length rest.length)
      else do
        let extension ← unpack code (rest.take length)
        let others ← unpackAll (rest.drop length)
        pure (extension :: others)
  | _ => .ok []
termination_by data.length
decreasing_by
  simp only [List.length_cons, List.length_drop]
  omega

/-- The value bytes of the first entry of a type.  No value is read, and nothing behind the entry
is looked at. -/
def findBytes (data : List UInt8) (type : ExtensionType) : Except Error (List UInt8) :=
  match data with
  | codeLow :: codeHigh :: lengthLow :: lengthHigh :: rest =>
      let code := UInt16.ofNat (ofLittleEndian [codeLow, codeHigh])
      let length := ofLittleEndian [lengthLow, lengthHigh]
      if code = 0 then .error .extensionNotFound
      else if data.length < Entry.headerLength + length then
        .error (.truncatedExtensionData code length (data.length - Entry.headerLength))
      else if code = type.code then .ok (rest.take length)
      else findBytes (rest.drop length) type
  | _ => .error .extensionNotFound
termination_by data.length
decreasing_by
  simp only [List.length_cons, List.length_drop]
  omega

/-- The entry that an extension is written as. -/
def toEntry (extension : Extension) : Entry := ⟨extension.code, extension.write⟩

/-- Why an extension cannot be written as an entry that reads back as itself. -/
def obstacle? (extension : Extension) : Option Error :=
  if extension.code = 0 then some .reservedExtensionType
  else
    match extension, ExtensionKind.ofCode? extension.code with
    | .unparsed _ _, some kind => some (.unparsedKnownExtensionType kind)
    | _, _ =>
        if extension.size ≤ Entry.maxLength then none
        else some (.extensionTooLarge extension.size)

/-- The bytes of a list of extensions.  If any of them cannot be written, the first that cannot
says why. -/
def packAll (extensions : List Extension) : Except Error (List UInt8) :=
  match extensions.findSome? obstacle? with
  | some error => .error error
  | none => .ok (extensions.flatMap fun extension => extension.toEntry.write)

/-- The length that the entry of an extension declares, if the extension can be written. -/
def declaredLength (extension : Extension) : Except Error UInt16 :=
  match extension.obstacle? with
  | some error => .error error
  | none => .ok (UInt16.ofNat extension.size)

/-- Put extensions behind what is already there, each as an entry that declares a given length. -/
def appendEntries (front : List UInt8) : List (Extension × UInt16) → List UInt8
  | [] => front
  | (extension, length) :: rest =>
      appendEntries (front ++ Entry.header extension.code length.toNat ++ extension.write) rest

/-- Put a list of extensions behind what is already there.  All lengths are known before anything
is written, so that a list which cannot be written leaves everything as it is. -/
def appendAll (front : List UInt8) (extensions : List Extension) : Except Error Unit × List UInt8 :=
  match extensions.mapM declaredLength with
  | .ok lengths => (.ok (), appendEntries front (extensions.zip lengths))
  | .error error => (.error error, front)

/-- How many bytes the entries of a list take. -/
def totalSize : List Extension → Nat
  | [] => 0
  | extension :: rest => Entry.headerLength + extension.size + totalSize rest

end Extension

end TokenAccounts
