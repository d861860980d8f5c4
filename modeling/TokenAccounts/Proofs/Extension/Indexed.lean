import TokenAccounts.Proofs.Extension.Entries
import TokenAccounts.Proofs.Field.Indexed

/-!
# Walking over entries by position

The two walks over entries keep a position in the data, take headers and values from there, and
compare what an entry declares with what is left behind its header.  Main statement: wherever they
come, the bytes they take are there, and they find what the walks from the front find.
-/

namespace TokenAccounts

open Checked (settled)

namespace ExtensionKind

/-- The value that the data of an entry holds.  What the read left over is how far it stopped before
the end. -/
def unpackIndexed (kind : ExtensionKind) (data : List UInt8) : Checked kind.Value := do
  settled (kind.checkLength data)
  let (outcome, stop) ← (Record.readIndexed : IndexedReader kind.Value).run data 0
  let value ← settled outcome
  let left ← subtract? data.length stop
  if left = 0 then pure value
  else throw (.invalidExtensionLength kind stop data.length)

theorem unpackIndexed_eq (kind : ExtensionKind) (data : List UInt8) :
    kind.unpackIndexed data = settled (kind.unpack data) := by
  rw [unpackIndexed, unpack]
  cases kind.checkLength data with
  | error error => rfl
  | ok checked =>
      have follows : (Record.readIndexed : IndexedReader kind.Value).Follows Record.read :=
        Record.follows_read
      obtain ⟨outcome, stop, indexedRead, inside, read⟩ :=
        follows.exists_run (Nat.zero_le data.length)
      rw [List.drop_zero] at read
      rw [Checked.settled_ok_bind, indexedRead, Checked.some_bind, Outcome.ok_bind, read]
      cases outcome with
      | error error => rfl
      | ok value =>
          have length : (data.drop stop).length = data.length - stop := List.length_drop
          simp only [Checked.settled_ok_bind, subtract?_of_le inside, Checked.some_bind, ← length]
          cases left : data.drop stop with
          | nil => rfl
          | cons byte others =>
              have consumed : data.length - (byte :: others).length = stop := by
                rw [← left, length]
                omega
              change settled (.error (.invalidExtensionLength kind stop data.length)) =
                settled (.error (.invalidExtensionLength kind
                  (data.length - (byte :: others).length) data.length))
              rw [consumed]

end ExtensionKind

namespace Extension

def unpackIndexed (code : UInt16) (data : List UInt8) : Checked Extension :=
  match ExtensionKind.ofCode? code with
  | some kind => do
      let value ← kind.unpackIndexed data
      pure (.typed kind value)
  | none => pure (.unparsed code data)

theorem unpackIndexed_eq (code : UInt16) (data : List UInt8) :
    unpackIndexed code data = settled (unpack code data) := by
  rw [unpackIndexed, unpack]
  cases ExtensionKind.ofCode? code with
  | none => rfl
  | some kind =>
      simp only [kind.unpackIndexed_eq]
      cases kind.unpack data <;> rfl

/-- The code and the length that stand at a position, if there are bytes for them. -/
def header? (data : List UInt8) (offset : Nat) : Option (UInt16 × Nat) := do
  let codeLow ← data[offset]?
  let codeHigh ← data[offset + 1]?
  let lengthLow ← data[offset + 2]?
  let lengthHigh ← data[offset + 3]?
  some (UInt16.ofNat (ofLittleEndian [codeLow, codeHigh]), ofLittleEndian [lengthLow, lengthHigh])

/-- Where a header fits, its bytes stand in front of what is left behind it. -/
theorem exists_header?_eq {data : List UInt8} {offset : Nat}
    (inside : offset + Entry.headerLength ≤ data.length) :
    ∃ code length, length ≤ Entry.maxLength ∧ header? data offset = some (code, length) ∧
      data.drop offset =
        Entry.header code length ++ data.drop (offset + Entry.headerLength) := by
  have long : Entry.headerLength ≤ (data.drop offset).length := by
    rw [List.length_drop]
    omega
  obtain ⟨code, length, rest, short, left⟩ := Entry.exists_eq_header_append long
  obtain ⟨codeLow, codeHigh, lengthLow, lengthHigh, bytes, codeBytes, lengthBytes⟩ :=
    Entry.exists_header_bytes code short
  have behind : data.drop (offset + Entry.headerLength) = rest := by
    rw [← List.drop_drop, left, List.drop_left' (Entry.length_header code length)]
  have at? (index : Nat) : data[offset + index]? =
      ([codeLow, codeHigh, lengthLow, lengthHigh] ++ rest)[index]? := by
    rw [← bytes, ← left, List.getElem?_drop]
  refine ⟨code, length, short, ?_, by rw [behind, left]⟩
  have first := at? 0
  rw [Nat.add_zero] at first
  simp [header?, first, at?, codeBytes, lengthBytes]

theorem length_drop_lt_headerLength {data : List UInt8} {offset : Nat}
    (outside : ¬ offset + Entry.headerLength ≤ data.length) :
    (data.drop offset).length < Entry.headerLength := by
  simp only [Entry.headerLength, List.length_drop] at outside ⊢
  omega

/-- A walk comes closer to the end with every header. -/
theorem length_sub_lt {data : List UInt8} {offset : Nat}
    (inside : offset + Entry.headerLength ≤ data.length) (length : Nat) :
    data.length - (offset + Entry.headerLength + length) < data.length - offset := by
  simp only [Entry.headerLength] at inside ⊢
  omega

/-- Read every extension from a position on. -/
def unpackAllFrom (data : List UInt8) (offset : Nat) : Checked (List Extension) :=
  if _ : offset + Entry.headerLength ≤ data.length then do
    let (code, length) ← header? data offset
    if code = 0 then pure []
    else
      let start := offset + Entry.headerLength
      let remaining ← subtract? data.length start
      if remaining < length then throw (.truncatedExtensionData code length remaining)
      else
        let stop := start + length
        let value ← slice? data start stop
        let extension ← unpackIndexed code value
        let others ← unpackAllFrom data stop
        pure (extension :: others)
  else do
    if offset < data.length then
      let _ ← subtract? data.length offset
    pure []
termination_by data.length - offset
decreasing_by exact length_sub_lt ‹_› length

/-- The value bytes of the first entry of a type from a position on. -/
def findBytesFrom (data : List UInt8) (type : ExtensionType) (offset : Nat) :
    Checked (List UInt8) :=
  if _ : offset + Entry.headerLength ≤ data.length then do
    let (code, length) ← header? data offset
    if code = 0 then throw .extensionNotFound
    else
      let start := offset + Entry.headerLength
      let stop := start + length
      if data.length < stop then
        let remaining ← subtract? data.length start
        throw (.truncatedExtensionData code length remaining)
      else if code = type.code then slice? data start stop
      else findBytesFrom data type stop
  else throw .extensionNotFound
termination_by data.length - offset
decreasing_by exact length_sub_lt ‹_› length

/-- A walk that reads every value never leaves the data. -/
theorem unpackAllFrom_eq (data : List UInt8) (offset : Nat) :
    unpackAllFrom data offset = settled (unpackAll (data.drop offset)) := by
  rw [unpackAllFrom]
  by_cases inside : offset + Entry.headerLength ≤ data.length
  · obtain ⟨code, length, short, header, left⟩ := exists_header?_eq inside
    have behind : (data.drop (offset + Entry.headerLength)).length =
        data.length - (offset + Entry.headerLength) := List.length_drop
    rw [dif_pos inside, header, Checked.some_bind, left, unpackAll_header_append _ short, behind]
    dsimp only
    by_cases reserved : code = 0
    · rw [if_pos reserved, if_pos reserved]
      rfl
    rw [if_neg reserved, if_neg reserved, subtract?_of_le inside, Checked.some_bind]
    by_cases cut : data.length - (offset + Entry.headerLength) < length
    · rw [if_pos cut, if_pos cut]
      rfl
    have stopInside : offset + Entry.headerLength + length ≤ data.length := by omega
    have others := unpackAllFrom_eq data (offset + Entry.headerLength + length)
    rw [if_neg cut, if_neg cut, slice?_add stopInside, Checked.some_bind, unpackIndexed_eq, others,
      List.drop_drop]
    cases unpack code ((data.drop (offset + Entry.headerLength)).take length) with
    | error error => rfl
    | ok extension =>
        cases unpackAll (data.drop (offset + Entry.headerLength + length)) <;> rfl
  · rw [dif_neg inside, unpackAll_of_isTail (.inl (length_drop_lt_headerLength inside))]
    split
    · next ahead =>
        rw [subtract?_of_le (Nat.le_of_lt ahead)]
        rfl
    · rfl
termination_by data.length - offset
decreasing_by exact length_sub_lt inside length

/-- Neither does a walk that looks for one entry. -/
theorem findBytesFrom_eq (data : List UInt8) (type : ExtensionType) (offset : Nat) :
    findBytesFrom data type offset = settled (findBytes (data.drop offset) type) := by
  rw [findBytesFrom]
  by_cases inside : offset + Entry.headerLength ≤ data.length
  · obtain ⟨code, length, short, header, left⟩ := exists_header?_eq inside
    have behind : (data.drop (offset + Entry.headerLength)).length =
        data.length - (offset + Entry.headerLength) := List.length_drop
    rw [dif_pos inside, header, Checked.some_bind, left, findBytes_header_append _ short, behind]
    dsimp only
    by_cases reserved : code = 0
    · rw [if_pos reserved, if_pos reserved]
      rfl
    rw [if_neg reserved, if_neg reserved]
    by_cases cut : data.length < offset + Entry.headerLength + length
    · have declared : data.length - (offset + Entry.headerLength) < length := by omega
      rw [if_pos cut, if_pos declared, subtract?_of_le inside]
      rfl
    have stopInside : offset + Entry.headerLength + length ≤ data.length := Nat.le_of_not_lt cut
    have undeclared : ¬ data.length - (offset + Entry.headerLength) < length := by omega
    rw [if_neg cut, if_neg undeclared]
    by_cases found : code = type.code
    · rw [if_pos found, if_pos found, slice?_add stopInside]
      rfl
    · rw [if_neg found, if_neg found, List.drop_drop]
      exact findBytesFrom_eq data type (offset + Entry.headerLength + length)
  · rw [dif_neg inside, findBytes_of_isTail (.inl (length_drop_lt_headerLength inside))]
    rfl
termination_by data.length - offset
decreasing_by exact length_sub_lt inside length

end Extension

end TokenAccounts
