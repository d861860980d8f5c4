import Mathlib.Data.List.Forall2
import TokenAccounts.Extension.Entries
import TokenAccounts.Proofs.Outcome

/-!
# Data divided into entries

All data divides, in just one way, into entries and an ending: bytes that are no entry, or the
header of an entry that is cut short.  Reading a list and looking for one entry are described by
that division, each by an induction of its own over the entries.
-/

namespace TokenAccounts

namespace Entry

/-! ## Entries and endings -/

/-- Whether an entry can stand in a list: its code is not the reserved one, and its value is as
short as two bytes can declare. -/
structure Sound (entry : Entry) : Prop where
  code_ne_zero : entry.code ≠ 0
  length_le : entry.value.length ≤ maxLength

/-- Whether a list ends at these bytes: they are too few for a header, or begin with the reserved
code. -/
def IsTail (unused : List UInt8) : Prop :=
  unused.length < headerLength ∨ headerLength ≤ unused.length ∧ unused.take 2 = [0, 0]

/-- How a list of entries ends: at bytes that are no entry, or at an entry that is cut short. -/
inductive Ending where
  | tail (unused : List UInt8)
  | cut (code : UInt16) (declared : Nat) (left : List UInt8)

namespace Ending

/-- The bytes of an ending. -/
def bytes : Ending → List UInt8
  | .tail unused => unused
  | .cut code declared left => header code declared ++ left

/-- Whether a list ends there. -/
def Valid : Ending → Prop
  | .tail unused => IsTail unused
  | .cut code declared left => code ≠ 0 ∧ declared ≤ maxLength ∧ left.length < declared

/-- The outcome of a walk that comes to this ending, given the outcome at unused bytes. -/
def outcome {α : Type} (unused : Except Error α) : Ending → Except Error α
  | .tail _ => unused
  | .cut code declared left => .error (.truncatedExtensionData code declared left.length)

end Ending

/-- Whether data divides into entries and an ending. -/
structure Divides (data : List UInt8) (entries : List Entry) (ending : Ending) : Prop where
  data_eq : data = entries.flatMap write ++ ending.bytes
  sound : ∀ entry ∈ entries, entry.Sound
  valid : ending.Valid

/-! ## Headers -/

@[simp] theorem length_header (code : UInt16) (length : Nat) :
    (header code length).length = headerLength := by
  simp [header, headerLength]

@[simp] theorem length_write (entry : Entry) :
    entry.write.length = headerLength + entry.value.length := by
  simp [write]

/-- What the four bytes of a header say. -/
theorem exists_header_bytes (code : UInt16) {length : Nat} (short : length ≤ maxLength) :
    ∃ codeLow codeHigh lengthLow lengthHigh,
      header code length = [codeLow, codeHigh, lengthLow, lengthHigh] ∧
      UInt16.ofNat (ofLittleEndian [codeLow, codeHigh]) = code ∧
      ofLittleEndian [lengthLow, lengthHigh] = length := by
  have codeBytes : UInt16.ofNat (ofLittleEndian (littleEndian 2 code.toNat)) = code := by
    simp [limit]
  have lengthBytes : ofLittleEndian (littleEndian 2 length) = length := by
    rw [ofLittleEndian_littleEndian]
    exact Nat.mod_eq_of_lt (Nat.lt_succ_of_le short)
  exact ⟨_, _, _, _, rfl, codeBytes, lengthBytes⟩

/-- Whatever is long enough begins with a header. -/
theorem exists_eq_header_append {data : List UInt8} (long : headerLength ≤ data.length) :
    ∃ code length rest, length ≤ maxLength ∧ data = header code length ++ rest := by
  obtain ⟨codeLow, codeHigh, lengthLow, lengthHigh, rest, rfl⟩ :
      ∃ codeLow codeHigh lengthLow lengthHigh rest,
        data = codeLow :: codeHigh :: lengthLow :: lengthHigh :: rest := by
    match data, long with
    | codeLow :: codeHigh :: lengthLow :: lengthHigh :: rest, _ => exact ⟨_, _, _, _, _, rfl⟩
  have codeBound : ofLittleEndian [codeLow, codeHigh] < limit 2 := ofLittleEndian_lt _
  have lengthBound : ofLittleEndian [lengthLow, lengthHigh] < limit 2 := ofLittleEndian_lt _
  have codeBytes := littleEndian_ofLittleEndian [codeLow, codeHigh]
  have lengthBytes := littleEndian_ofLittleEndian [lengthLow, lengthHigh]
  simp only [List.length_cons, List.length_nil] at codeBytes lengthBytes
  refine ⟨UInt16.ofNat (ofLittleEndian [codeLow, codeHigh]),
    ofLittleEndian [lengthLow, lengthHigh], rest, Nat.le_of_lt_succ lengthBound, ?_⟩
  have held : (UInt16.ofNat (ofLittleEndian [codeLow, codeHigh])).toNat =
      ofLittleEndian [codeLow, codeHigh] := UInt16.toNat_ofNat_of_lt' codeBound
  rw [header, held, codeBytes, lengthBytes]
  rfl

theorem header_inj {code other : UInt16} {length otherLength : Nat} (short : length ≤ maxLength)
    (otherShort : otherLength ≤ maxLength)
    (same : header code length = header other otherLength) :
    code = other ∧ length = otherLength := by
  rcases exists_header_bytes code short with ⟨_, _, _, _, bytes, rfl, rfl⟩
  rcases exists_header_bytes other otherShort with ⟨_, _, _, _, otherBytes, rfl, rfl⟩
  rw [bytes, otherBytes] at same
  cases same
  exact ⟨rfl, rfl⟩

/-- A tail that is long enough for a header has the header of unused space. -/
theorem isTail_header_append_iff {code : UInt16} {length : Nat} {rest : List UInt8} :
    IsTail (header code length ++ rest) ↔ code = 0 := by
  have front : (header code length ++ rest).take 2 = littleEndian 2 code.toNat := by
    simp [header]
  have long : headerLength ≤ (header code length ++ rest).length := by simp
  rw [IsTail, front]
  constructor
  · intro isTail
    rcases isTail with short | ⟨-, zeros⟩
    · omega
    · have value := congrArg ofLittleEndian zeros
      rw [ofLittleEndian_littleEndian] at value
      exact UInt16.toNat_inj.mp (by simpa [ofLittleEndian, limit] using value)
  · intro same
    subst same
    exact .inr ⟨long, rfl⟩

/-! ## There is one division -/

variable {data rest left : List UInt8} {entry : Entry} {entries : List Entry} {ending : Ending}

theorem Divides.cons (sound : entry.Sound) (divided : Divides rest entries ending) :
    Divides (entry.write ++ rest) (entry :: entries) ending where
  data_eq := by rw [List.flatMap_cons, List.append_assoc, ← divided.data_eq]
  sound := List.forall_mem_cons.mpr ⟨sound, divided.sound⟩
  valid := divided.valid

/-- Entries may stand in front of divided data. -/
theorem Divides.append {front : List Entry} (sound : ∀ entry ∈ front, entry.Sound)
    (divided : Divides rest entries ending) :
    Divides (front.flatMap write ++ rest) (front ++ entries) ending := by
  induction front with
  | nil => exact divided
  | cons entry front ih =>
      rcases List.forall_mem_cons.mp sound with ⟨first, others⟩
      rw [List.flatMap_cons, List.append_assoc]
      exact (ih others).cons first

theorem divides_of_isTail (isTail : IsTail data) : Divides data [] (.tail data) where
  data_eq := rfl
  sound := by simp
  valid := isTail

/-- Data is divided from the front. -/
theorem exists_divides (data : List UInt8) : ∃ entries ending, Divides data entries ending := by
  by_cases few : data.length < headerLength
  · exact ⟨[], .tail data, divides_of_isTail (.inl few)⟩
  rcases exists_eq_header_append (Nat.le_of_not_lt few) with ⟨code, length, rest, short, same⟩
  by_cases reserved : code = 0
  · have isTail : IsTail data := same ▸ isTail_header_append_iff.mpr reserved
    exact ⟨[], .tail data, divides_of_isTail isTail⟩
  by_cases enough : length ≤ rest.length
  · have smaller : (rest.drop length).length < data.length := by
      simp [same, headerLength]
      omega
    have width : (rest.take length).length = length := List.length_take_of_le enough
    have sound : Sound ⟨code, rest.take length⟩ :=
      ⟨reserved, Nat.le_trans (Nat.le_of_eq width) short⟩
    have first : data = write ⟨code, rest.take length⟩ ++ rest.drop length := by
      rw [write, width, List.append_assoc, List.take_append_drop, same]
    rcases exists_divides (rest.drop length) with ⟨entries, ending, divided⟩
    exact ⟨_ :: entries, ending, first ▸ divided.cons sound⟩
  · exact ⟨[], .cut code length rest, same, by simp, reserved, short, Nat.lt_of_not_le enough⟩
termination_by data.length
decreasing_by exact smaller

/-- The first entry of some data and what follows it are determined. -/
theorem write_append_inj {other : Entry} {otherRest : List UInt8} (sound : entry.Sound)
    (otherSound : other.Sound) (same : entry.write ++ rest = other.write ++ otherRest) :
    entry = other ∧ rest = otherRest := by
  simp only [write, List.append_assoc] at same
  rcases List.append_inj same (by simp) with ⟨headers, tails⟩
  rcases header_inj sound.length_le otherSound.length_le headers with ⟨codes, lengths⟩
  rcases List.append_inj tails lengths with ⟨values, rests⟩
  cases entry
  cases other
  cases codes
  cases values
  exact ⟨rfl, rests⟩

/-- Data that begins with an entry is not at an ending. -/
theorem write_append_ne_bytes (sound : entry.Sound) (valid : ending.Valid) :
    entry.write ++ rest ≠ ending.bytes := by
  intro same
  rw [write, List.append_assoc] at same
  cases ending with
  | tail unused =>
      have isTail : IsTail unused := valid
      rw [show unused = _ from same.symm, isTail_header_append_iff] at isTail
      exact sound.code_ne_zero isTail
  | cut code declared left =>
      rcases valid with ⟨-, short, cut⟩
      rcases List.append_inj same (by simp) with ⟨headers, tails⟩
      rcases header_inj sound.length_le short headers with ⟨-, lengths⟩
      have longer := congrArg List.length tails
      rw [List.length_append] at longer
      omega

theorem Ending.eq_of_bytes_eq {other : Ending} (valid : ending.Valid) (otherValid : other.Valid)
    (same : ending.bytes = other.bytes) : ending = other := by
  have apart {code : UInt16} {declared : Nat} {left : List UInt8}
      (cut : (Ending.cut code declared left).Valid) : ¬ IsTail (header code declared ++ left) :=
    fun isTail => cut.1 (isTail_header_append_iff.mp isTail)
  cases ending with
  | tail unused =>
      cases other with
      | tail otherUnused => exact congrArg Ending.tail same
      | cut code declared left =>
          obtain rfl : unused = header code declared ++ left := same
          exact absurd valid (apart otherValid)
  | cut code declared left =>
      cases other with
      | tail unused =>
          obtain rfl : header code declared ++ left = unused := same
          exact absurd otherValid (apart valid)
      | cut other otherDeclared otherLeft =>
          rcases List.append_inj same (by simp) with ⟨headers, rfl⟩
          rcases header_inj valid.2.1 otherValid.2.1 headers with ⟨rfl, rfl⟩
          rfl

/-! ## Taking a division apart -/

theorem Divides.eq_bytes (divided : Divides data [] ending) : data = ending.bytes :=
  divided.data_eq

/-- Behind its first entry, data divides into the other entries and the same ending. -/
theorem Divides.exists_rest (divided : Divides data (entry :: entries) ending) :
    ∃ rest, data = entry.write ++ rest ∧ entry.Sound ∧ Divides rest entries ending := by
  rcases divided with ⟨same, sound, valid⟩
  rcases List.forall_mem_cons.mp sound with ⟨first, others⟩
  rw [List.flatMap_cons, List.append_assoc] at same
  exact ⟨_, same, first, rfl, others, valid⟩

/-- No data divides in two ways. -/
theorem Divides.unique {others : List Entry} {otherEnding : Ending}
    (divided : Divides data entries ending) (other : Divides data others otherEnding) :
    entries = others ∧ ending = otherEnding := by
  induction entries generalizing data others with
  | nil =>
      have same := divided.eq_bytes
      cases others with
      | nil => exact ⟨rfl, Ending.eq_of_bytes_eq divided.valid other.valid
          (same.symm.trans other.eq_bytes)⟩
      | cons first others =>
          rcases other.exists_rest with ⟨rest, begins, sound, -⟩
          exact absurd (begins.symm.trans same) (write_append_ne_bytes sound divided.valid)
  | cons entry entries ih =>
      rcases divided.exists_rest with ⟨rest, rfl, sound, remaining⟩
      cases others with
      | nil => exact absurd other.eq_bytes (write_append_ne_bytes sound other.valid)
      | cons first others =>
          rcases other.exists_rest with ⟨otherRest, begins, otherSound, otherRemaining⟩
          rcases write_append_inj sound otherSound begins with ⟨rfl, rfl⟩
          rcases ih remaining otherRemaining with ⟨rfl, rfl⟩
          exact ⟨rfl, rfl⟩

end Entry

namespace Extension

open Entry

variable {data rest : List UInt8} {entry : Entry} {entries : List Entry} {ending : Ending}

/-! ## Reading a list -/

/-- One step of reading a list. -/
theorem unpackAll_header_append (code : UInt16) {length : Nat} (short : length ≤ maxLength)
    (rest : List UInt8) :
    unpackAll (header code length ++ rest) =
      if code = 0 then .ok []
      else if rest.length < length then
        .error (.truncatedExtensionData code length rest.length)
      else (do
        let extension ← unpack code (rest.take length)
        let others ← unpackAll (rest.drop length)
        pure (extension :: others)) := by
  obtain ⟨codeLow, codeHigh, lengthLow, lengthHigh, bytes, codeBytes, lengthBytes⟩ :=
    exists_header_bytes code short
  rw [bytes]
  simp only [List.cons_append, List.nil_append]
  rw [unpackAll, codeBytes, lengthBytes]

/-- Bytes that are no entry hold no extension. -/
theorem unpackAll_of_isTail {unused : List UInt8} (isTail : IsTail unused) :
    unpackAll unused = .ok [] := by
  by_cases few : unused.length < headerLength
  · unfold unpackAll
    split
    · simp only [headerLength, List.length_cons] at few
      omega
    · rfl
  · rcases exists_eq_header_append (Nat.le_of_not_lt few) with ⟨code, length, rest, short, rfl⟩
    rw [unpackAll_header_append _ short, if_pos (isTail_header_append_iff.mp isTail)]

theorem unpackAll_write_append (sound : entry.Sound) (rest : List UInt8) :
    unpackAll (entry.write ++ rest) = (do
      let extension ← entry.unpack
      let others ← unpackAll rest
      pure (extension :: others)) := by
  rw [Entry.write, List.append_assoc, unpackAll_header_append _ sound.length_le,
    if_neg sound.code_ne_zero, if_neg (by simp), List.take_left' rfl, List.drop_left' rfl]
  rfl

theorem unpackAll_bytes (valid : ending.Valid) :
    unpackAll ending.bytes = ending.outcome (.ok []) := by
  cases ending with
  | tail unused => exact unpackAll_of_isTail valid
  | cut code declared left =>
      rcases valid with ⟨unreserved, short, cut⟩
      rw [Ending.bytes, unpackAll_header_append _ short, if_neg unreserved, if_pos cut,
        Ending.outcome]

/-- A list is read if it ends at a tail and each of its entries is. -/
theorem unpackAll_eq_ok_iff (divided : Divides data entries ending)
    {extensions : List Extension} :
    unpackAll data = .ok extensions ↔
      (∃ unused, ending = .tail unused) ∧
        List.Forall₂ (fun entry extension => entry.unpack = .ok extension) entries extensions := by
  induction entries generalizing data extensions with
  | nil =>
      rw [divided.eq_bytes, unpackAll_bytes divided.valid]
      cases ending with
      | tail unused => simp [Ending.outcome, eq_comm]
      | cut code declared left => simp [Ending.outcome]
  | cons entry entries ih =>
      rcases divided.exists_rest with ⟨rest, rfl, sound, remaining⟩
      rw [unpackAll_write_append sound, List.forall₂_cons_left_iff]
      constructor
      · intro unpacked
        rcases Outcome.bind_eq_ok_iff.mp unpacked with ⟨extension, first, restUnpacked⟩
        rcases Outcome.bind_eq_ok_iff.mp restUnpacked with ⟨others, listed, ending⟩
        cases ending
        rcases (ih remaining).mp listed with ⟨tail, held⟩
        exact ⟨tail, extension, others, first, held, rfl⟩
      · intro conditions
        rcases conditions with ⟨tail, extension, others, first, held, rfl⟩
        rw [first, Outcome.ok_bind, (ih remaining).mpr ⟨tail, held⟩]
        rfl

/-- What is behind the entries makes no difference, as long as it is no entry. -/
theorem unpackAll_append_tail_congr (sound : ∀ entry ∈ entries, entry.Sound)
    {unused other : List UInt8} (isTail : IsTail unused) (otherIsTail : IsTail other) :
    unpackAll (entries.flatMap Entry.write ++ unused) =
      unpackAll (entries.flatMap Entry.write ++ other) := by
  induction entries with
  | nil =>
      exact (unpackAll_of_isTail isTail).trans (unpackAll_of_isTail otherIsTail).symm
  | cons entry entries ih =>
      rcases List.forall_mem_cons.mp sound with ⟨first, others⟩
      rw [List.flatMap_cons, List.append_assoc, List.append_assoc, unpackAll_write_append first,
        unpackAll_write_append first, ih others]

/-- A list is refused for the first entry that is, and otherwise for one that is cut short. -/
theorem unpackAll_eq_error_iff (divided : Divides data entries ending) {error : Error} :
    unpackAll data = .error error ↔
      (∃ before refused after, entries = before ++ refused :: after ∧
        (∀ entry ∈ before, ∃ extension, entry.unpack = .ok extension) ∧
        refused.unpack = .error error) ∨
      (∀ entry ∈ entries, ∃ extension, entry.unpack = .ok extension) ∧
        ∃ code declared left, ending = .cut code declared left ∧
          error = .truncatedExtensionData code declared left.length := by
  induction entries generalizing data with
  | nil =>
      rw [divided.eq_bytes, unpackAll_bytes divided.valid]
      cases ending with
      | tail unused => simp [Ending.outcome]
      | cut code declared left => simp [Ending.outcome, eq_comm]
  | cons entry entries ih =>
      rcases divided.exists_rest with ⟨rest, rfl, sound, remaining⟩
      have others := ih remaining
      rw [unpackAll_write_append sound]
      constructor
      · intro failed
        rcases Outcome.bind_eq_error_iff.mp failed with refused | ⟨extension, first, failed⟩
        · exact .inl ⟨[], entry, entries, rfl, by simp, refused⟩
        rcases Outcome.bind_eq_error_iff.mp failed with failed | ⟨_, _, ending⟩
        · rcases others.mp failed with ⟨before, bad, after, rfl, held, refused⟩ | ⟨held, cut⟩
          · exact .inl ⟨entry :: before, bad, after, rfl,
              List.forall_mem_cons.mpr ⟨⟨extension, first⟩, held⟩, refused⟩
          · exact .inr ⟨List.forall_mem_cons.mpr ⟨⟨extension, first⟩, held⟩, cut⟩
        · cases ending
      · intro causes
        rcases causes with ⟨before, bad, after, same, held, refused⟩ | ⟨held, cut⟩
        · cases before with
          | nil =>
              cases same
              rw [refused, Outcome.error_bind]
          | cons _ before =>
              cases same
              rcases List.forall_mem_cons.mp held with ⟨⟨extension, first⟩, held⟩
              have failed := others.mpr (.inl ⟨before, bad, after, rfl, held, refused⟩)
              rw [first, Outcome.ok_bind, failed, Outcome.error_bind]
        · rcases List.forall_mem_cons.mp held with ⟨⟨extension, first⟩, held⟩
          rw [first, Outcome.ok_bind, others.mpr (.inr ⟨held, cut⟩), Outcome.error_bind]

/-! ## Looking for one entry -/

/-- One step of looking for an entry. -/
theorem findBytes_header_append (code : UInt16) {length : Nat} (short : length ≤ maxLength)
    (rest : List UInt8) (type : ExtensionType) :
    findBytes (header code length ++ rest) type =
      if code = 0 then .error .extensionNotFound
      else if rest.length < length then
        .error (.truncatedExtensionData code length rest.length)
      else if code = type.code then .ok (rest.take length)
      else findBytes (rest.drop length) type := by
  obtain ⟨codeLow, codeHigh, lengthLow, lengthHigh, bytes, codeBytes, lengthBytes⟩ :=
    exists_header_bytes code short
  -- The walk compares positions in the data, and a step compares lengths behind the header.
  have shifted : headerLength + rest.length < headerLength + length ↔ rest.length < length :=
    Nat.add_lt_add_iff_left
  have size : (codeLow :: codeHigh :: lengthLow :: lengthHigh :: rest).length =
      headerLength + rest.length := by
    simp only [headerLength, List.length_cons]
    omega
  rw [bytes]
  simp only [List.cons_append, List.nil_append]
  rw [findBytes, codeBytes, lengthBytes]
  simp only [size, shifted, Nat.add_sub_cancel_left]

theorem findBytes_of_isTail {unused : List UInt8} (isTail : IsTail unused) (type : ExtensionType) :
    findBytes unused type = .error .extensionNotFound := by
  by_cases few : unused.length < headerLength
  · unfold findBytes
    split
    · simp only [headerLength, List.length_cons] at few
      omega
    · rfl
  · rcases exists_eq_header_append (Nat.le_of_not_lt few) with ⟨code, length, rest, short, rfl⟩
    rw [findBytes_header_append _ short, if_pos (isTail_header_append_iff.mp isTail)]

theorem findBytes_write_append (sound : entry.Sound) (rest : List UInt8) (type : ExtensionType) :
    findBytes (entry.write ++ rest) type =
      if entry.code = type.code then .ok entry.value else findBytes rest type := by
  rw [Entry.write, List.append_assoc, findBytes_header_append _ sound.length_le,
    if_neg sound.code_ne_zero, if_neg (by simp), List.take_left' rfl, List.drop_left' rfl]

theorem findBytes_bytes (valid : ending.Valid) (type : ExtensionType) :
    findBytes ending.bytes type = ending.outcome (.error .extensionNotFound) := by
  cases ending with
  | tail unused => exact findBytes_of_isTail valid type
  | cut code declared left =>
      rcases valid with ⟨unreserved, short, cut⟩
      rw [Ending.bytes, findBytes_header_append _ short, if_neg unreserved, if_pos cut,
        Ending.outcome]

/-- Looking for an entry gives the value of the first one of its type, and says at the ending why
there is none. -/
theorem findBytes_eq (divided : Divides data entries ending) (type : ExtensionType) :
    findBytes data type =
      match entries.find? (·.code == type.code) with
      | some entry => .ok entry.value
      | none => ending.outcome (.error .extensionNotFound) := by
  induction entries generalizing data with
  | nil =>
      rw [divided.eq_bytes, findBytes_bytes divided.valid]
      rfl
  | cons entry entries ih =>
      rcases divided.exists_rest with ⟨rest, rfl, sound, remaining⟩
      rw [findBytes_write_append sound]
      by_cases same : entry.code = type.code
      · rw [if_pos same, List.find?_cons_of_pos (by simpa using same)]
      · rw [if_neg same, List.find?_cons_of_neg (by simpa using same)]
        exact ih remaining

end Extension

end TokenAccounts
