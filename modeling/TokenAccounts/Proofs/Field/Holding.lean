import TokenAccounts.Field.Layout
import TokenAccounts.Proofs.Bytes.Reader

/-!
# Which bytes hold which values

A reader accepts the bytes that hold a value and no others.  Bytes hold a value if they are what is
written of it, up to one freedom: the slot of an absent value may have any content.  Besides, the
value fits the counts in front of it, and no optional byte string is present as all zeros, because
that is how its absence is written.
-/

namespace TokenAccounts

/-- Reading a scalar consumes what is written of it. -/
theorem Scalar.run_read_eq_ok_iff (scalar : Scalar) {unread rest : List UInt8}
    {value : scalar.Value} :
    scalar.read.run unread = (.ok value, rest) ↔ unread = scalar.write value ++ rest := by
  constructor
  · intro read
    rcases Reader.run_bind_eq_ok_iff.mp read with ⟨bytes, middle, taken, read⟩
    rcases Reader.run_pure_eq_ok_iff.mp read with ⟨rfl, rfl⟩
    rw [scalar.write_ofBytes bytes]
    exact Reader.run_take_eq_ok_iff.mp taken
  · intro same
    subst same
    exact scalar.run_read_append value rest

namespace Format

variable {unread rest : List UInt8}

/-- The bytes of a field with zeros in the slot of an absent value. -/
def clearAbsent : Format → List UInt8 → List UInt8
  | .slotted _, bytes =>
      if bytes.take 4 = [0, 0, 0, 0] then
        bytes.take 4 ++ List.replicate (bytes.length - 4) 0
      else bytes
  | _, bytes => bytes

theorem clearAbsent_of_tag_zero (item : Scalar) (slot : List UInt8) :
    (slotted item).clearAbsent (littleEndian 4 0 ++ slot) =
      littleEndian 4 0 ++ List.replicate slot.length 0 := by
  simp [clearAbsent, littleEndian]

theorem clearAbsent_of_tag_one (item : Scalar) (slot : List UInt8) :
    (slotted item).clearAbsent (littleEndian 4 1 ++ slot) = littleEndian 4 1 ++ slot := by
  simp [clearAbsent, littleEndian]

/-- Clearing keeps every byte in its place. -/
@[simp] theorem length_clearAbsent (format : Format) (bytes : List UInt8) :
    (format.clearAbsent bytes).length = bytes.length := by
  cases format with
  | slotted item =>
      rw [clearAbsent]
      split
      · simp
        omega
      · rfl
  | scalar | flag | accountState | nonzero | tagged | text | pairs => rfl

/-- Whether a value is told apart from its absence: a byte string that may be absent is not
present as all zeros. -/
def Settled : (format : Format) → format.Value → Prop
  | .nonzero kind, value => value ≠ some (.zero kind)
  | .scalar _, _ => True
  | .flag, _ => True
  | .accountState, _ => True
  | .tagged _, _ => True
  | .slotted _, _ => True
  | .text, _ => True
  | .pairs, _ => True

/-- Reading back changes just the values that are not settled. -/
theorem normalize_eq_self_iff (format : Format) (value : format.Value) :
    format.normalize value = value ↔ format.Settled value := by
  cases format with
  | nonzero kind =>
      cases value with
      | none => simp [normalize, Settled]
      | some blob => simp [normalize, Settled, Option.filter]
  | scalar | flag | accountState | tagged | slotted | text | pairs =>
      simp [normalize, Settled]

/-- Whether bytes hold a value of this format. -/
structure Holds (format : Format) (bytes : List UInt8) (value : format.Value) : Prop where
  clearAbsent_eq : format.clearAbsent bytes = format.write value
  fits : format.Fits value
  settled : format.Settled value

/-! ## What a successful read consumed -/

theorem eq_of_run_readTextBytes {bytes : List UInt8}
    (read : readTextBytes.run unread = (.ok bytes, rest)) :
    unread = littleEndian 4 bytes.length ++ bytes ++ rest ∧ bytes.length < countLimit := by
  obtain ⟨length, left, lengthRead, tailRead⟩ :=
    Reader.run_bind_eq_ok_iff.mp (Reader.run_orRestore_eq_ok_iff.mp read)
  rcases Reader.run_bind_eq_ok_iff.mp tailRead with ⟨⟨taken, width⟩, last, taking, ending⟩
  rcases Reader.run_pure_eq_ok_iff.mp ending with ⟨rfl, rfl⟩
  rw [(Scalar.run_read_eq_ok_iff .u32).mp lengthRead, Reader.run_take_eq_ok_iff.mp taking, width]
  exact ⟨by simp [Scalar.write], length.toNat_lt⟩

theorem eq_of_run_readText {text : String} (read : readText.run unread = (.ok text, rest)) :
    unread = writeText text ++ rest ∧ text.utf8ByteSize < countLimit := by
  rcases Reader.run_bind_eq_ok_iff.mp read with ⟨bytes, middle, bytesRead, read⟩
  have consumed := eq_of_run_readTextBytes bytesRead
  cases decoded : ofUtf8Bytes? bytes with
  | none => simp [decoded] at read
  | some found =>
      simp only [decoded] at read
      rcases Reader.run_pure_eq_ok_iff.mp read with ⟨rfl, rfl⟩
      rcases utf8Bytes_of_ofUtf8Bytes? decoded with rfl
      simpa [writeText] using consumed

theorem eq_of_run_readPair {pair : String × String}
    (read : readPair.run unread = (.ok pair, rest)) :
    unread = writePair pair ++ rest ∧
      pair.1.utf8ByteSize < countLimit ∧ pair.2.utf8ByteSize < countLimit := by
  rcases Reader.run_bind_eq_ok_iff.mp read with ⟨key, middle, keyRead, read⟩
  rcases Reader.run_bind_eq_ok_iff.mp read with ⟨value, left, valueRead, read⟩
  rcases Reader.run_pure_eq_ok_iff.mp read with ⟨rfl, rfl⟩
  rcases eq_of_run_readText keyRead with ⟨rfl, keyFits⟩
  rcases eq_of_run_readText valueRead with ⟨rfl, valueFits⟩
  exact ⟨by simp [writePair], keyFits, valueFits⟩

/-- A tag that was accepted says whether there is a value. -/
theorem eq_of_run_readOption {α : Type} {tag : UInt32} {present : Reader α} {value : Option α}
    (read : (readOption tag (pure none) (do
      let held ← present
      pure (some held))).run unread = (.ok value, rest)) :
    tag = 0 ∧ value = none ∧ unread = rest ∨
      tag = 1 ∧ ∃ held, value = some held ∧ present.run unread = (.ok held, rest) := by
  unfold readOption at read
  split at read
  · next isZero =>
      rcases Reader.run_pure_eq_ok_iff.mp read with ⟨rfl, rfl⟩
      exact .inl ⟨isZero, rfl, rfl⟩
  · split at read
    · next isOne =>
        rcases Reader.run_bind_eq_ok_iff.mp read with ⟨held, middle, heldRead, ending⟩
        rcases Reader.run_pure_eq_ok_iff.mp ending with ⟨rfl, rfl⟩
        exact .inr ⟨isOne, held, rfl, heldRead⟩
    · simp at read

/-- What a successful read consumed holds the value that was read. -/
theorem holds_of_run_read (format : Format) {value : format.Value}
    (read : format.read.run unread = (.ok value, rest)) :
    ∃ bytes, unread = bytes ++ rest ∧ format.Holds bytes value := by
  cases format with
  | scalar item =>
      exact ⟨item.write value, item.run_read_eq_ok_iff.mp read, rfl, trivial, trivial⟩
  | flag =>
      rcases Reader.run_bind_eq_ok_iff.mp read with ⟨byte, middle, byteRead, choice⟩
      refine ⟨[byte], ?_⟩
      rw [Scalar.u8.run_read_eq_ok_iff.mp byteRead]
      split at choice
      · next isZero =>
          rcases Reader.run_pure_eq_ok_iff.mp choice with ⟨rfl, rfl⟩
          exact ⟨rfl, by simp [clearAbsent, write, isZero], trivial, trivial⟩
      · split at choice
        · next isOne =>
            rcases Reader.run_pure_eq_ok_iff.mp choice with ⟨rfl, rfl⟩
            exact ⟨rfl, by simp [clearAbsent, write, isOne], trivial, trivial⟩
        · simp at choice
  | accountState =>
      rcases Reader.run_bind_eq_ok_iff.mp read with ⟨byte, middle, byteRead, choice⟩
      refine ⟨[byte], ?_⟩
      rw [Scalar.u8.run_read_eq_ok_iff.mp byteRead]
      split at choice
      · next state found =>
          rcases Reader.run_pure_eq_ok_iff.mp choice with ⟨rfl, rfl⟩
          rcases AccountState.code_of_ofCode? found with rfl
          exact ⟨rfl, rfl, trivial, trivial⟩
      · simp at choice
  | nonzero kind =>
      rcases Reader.run_bind_eq_ok_iff.mp read with ⟨blob, middle, blobRead, choice⟩
      rcases Reader.run_pure_eq_ok_iff.mp choice with ⟨rfl, rfl⟩
      refine ⟨blob.bytes, (Scalar.blob kind).run_read_eq_ok_iff.mp blobRead, ?_, trivial, ?_⟩
      · by_cases absent : blob = .zero kind <;> simp [clearAbsent, write, absent]
      · by_cases absent : blob = .zero kind <;> simp [Settled, absent]
  | tagged item =>
      obtain ⟨tag, middle, tagRead, choice⟩ :=
        Reader.run_bind_eq_ok_iff.mp (Reader.run_orRestore_eq_ok_iff.mp read)
      rw [Scalar.u8.run_read_eq_ok_iff.mp tagRead]
      rcases eq_of_run_readOption choice with ⟨isZero, rfl, rfl⟩ | ⟨isOne, held, rfl, heldRead⟩
      · obtain rfl : tag = 0 := UInt8.toUInt32_inj.mp isZero
        exact ⟨[0], rfl, rfl, trivial, trivial⟩
      · obtain rfl : tag = 1 := UInt8.toUInt32_inj.mp isOne
        rw [item.run_read_eq_ok_iff.mp heldRead]
        exact ⟨1 :: item.write held, rfl, rfl, trivial, trivial⟩
  | slotted item =>
      obtain ⟨tag, middle, tagRead, slotRead⟩ :=
        Reader.run_bind_eq_ok_iff.mp (Reader.run_orRestore_eq_ok_iff.mp read)
      rcases Reader.run_bind_eq_ok_iff.mp slotRead with ⟨held, left, heldRead, choice⟩
      rw [Scalar.u32.run_read_eq_ok_iff.mp tagRead, item.run_read_eq_ok_iff.mp heldRead]
      refine ⟨Scalar.u32.write tag ++ item.write held, ?_⟩
      unfold readOption at choice
      split at choice
      · next isZero =>
          rcases Reader.run_pure_eq_ok_iff.mp choice with ⟨rfl, rfl⟩
          refine ⟨by simp, ?_, trivial, trivial⟩
          rw [isZero, write, ← item.length_write held]
          exact clearAbsent_of_tag_zero item (item.write held)
      · split at choice
        · next isOne =>
            rcases Reader.run_pure_eq_ok_iff.mp choice with ⟨rfl, rfl⟩
            refine ⟨by simp, ?_, trivial, trivial⟩
            rw [isOne]
            exact clearAbsent_of_tag_one item (item.write held)
        · simp at choice
  | text =>
      rcases eq_of_run_readText read with ⟨consumed, fits⟩
      exact ⟨writeText value, consumed, rfl, fits, trivial⟩
  | pairs =>
      rcases Reader.run_bind_eq_ok_iff.mp read with ⟨count, middle, countRead, rowsRead⟩
      obtain ⟨rows, length, fits⟩ :=
        Reader.eq_flatMap_of_run_times (fun _ _ _ => eq_of_run_readPair) rowsRead
      refine ⟨Format.pairs.write value, ?_, rfl, ⟨length ▸ count.toNat_lt, fits⟩, trivial⟩
      rw [Scalar.u32.run_read_eq_ok_iff.mp countRead, rows]
      simp [Scalar.write, write, length]

/-- Whatever fills the slot of an absent value, it is read over. -/
theorem run_read_absent_slot (item : Scalar) {slot : List UInt8} (width : slot.length = item.width)
    (rest : List UInt8) :
    (slotted item).read.run (littleEndian 4 0 ++ slot ++ rest) = (.ok none, rest) := by
  have slotRead := item.run_read_append (item.ofBytes ⟨slot, width⟩) rest
  rw [item.write_ofBytes] at slotRead
  apply Reader.run_orRestore_of_ok
  rw [List.append_assoc, Reader.run_bind_of_ok (run_read_count (by decide) _),
    Reader.run_bind_of_ok slotRead]
  rfl

/-- Bytes that hold a value are read as that value. -/
theorem run_read_of_holds (format : Format) {bytes : List UInt8} {value : format.Value}
    (holds : format.Holds bytes value) (rest : List UInt8) :
    format.read.run (bytes ++ rest) = (.ok value, rest) := by
  rcases holds with ⟨cleared, fits, settled⟩
  have normal := (format.normalize_eq_self_iff value).mpr settled
  have written := format.run_read_append value fits rest
  rw [normal, ← cleared] at written
  cases format with
  | slotted item =>
      by_cases tag : bytes.take 4 = [0, 0, 0, 0]
      · -- The tag says that the value is absent, so the slot may be anything.
        obtain ⟨slot, rfl⟩ : ∃ slot, bytes = littleEndian 4 0 ++ slot := by
          refine ⟨bytes.drop 4, ?_⟩
          rw [show littleEndian 4 0 = bytes.take 4 from tag.symm, List.take_append_drop]
        rw [clearAbsent_of_tag_zero] at cleared
        cases value with
        | none =>
            have width := congrArg List.length cleared
            exact run_read_absent_slot item (by simpa [write] using width) rest
        | some value => simp [write, littleEndian] at cleared
      · rwa [clearAbsent, if_neg tag] at written
  | scalar | flag | accountState | nonzero | tagged | text | pairs => exact written

/-- Reading accepts the bytes that hold a value, and no others. -/
theorem run_read_eq_ok_iff (format : Format) {value : format.Value} :
    format.read.run unread = (.ok value, rest) ↔
      ∃ bytes, unread = bytes ++ rest ∧ format.Holds bytes value := by
  constructor
  · exact format.holds_of_run_read
  · intro conditions
    rcases conditions with ⟨bytes, rfl, holds⟩
    exact format.run_read_of_holds holds rest

end Format

end TokenAccounts
