import TokenAccounts.Proofs.Bytes.Cursor
import TokenAccounts.Proofs.Field.Holding
import TokenAccounts.Proofs.Field.Indexed

/-!
# Values one after the other

Values of any formats can be put into one buffer and read with one cursor.  Main statement: what was
put in is read back in the same order, each read consuming what was written of its value, and what
follows is left alone; in the other direction, a value is written as the bytes that it was read
from, with zeros in the slot of an absent one.
-/

namespace TokenAccounts

/-- A value with the format in which it is laid out. -/
structure Item where
  format : Format
  value : format.Value

namespace Item

def write (item : Item) : List UInt8 := item.format.write item.value

def Fits (item : Item) : Prop := item.format.Fits item.value

/-- The value as it is read back: an optional byte string of zeros comes back absent. -/
def readBack (item : Item) : Item := ⟨item.format, item.format.normalize item.value⟩

end Item

/-- Put a value behind what is in a buffer. -/
def put (buffer : List UInt8) (item : Item) : List UInt8 := buffer ++ item.write

theorem foldl_put (buffer : List UInt8) (items : List Item) :
    items.foldl put buffer = buffer ++ items.flatMap Item.write := by
  induction items generalizing buffer with
  | nil => simp
  | cons item items ih => rw [List.foldl_cons, ih, put, List.flatMap_cons, List.append_assoc]

/-- One read of several: what was asked for, where it began, what came of it and where it ended. -/
structure Step where
  format : Format
  start : Nat
  outcome : Except Error format.Value
  stop : Nat

/-- What was read, if the read succeeded. -/
def Step.item? (step : Step) : Option Item :=
  match step.outcome with
  | .ok value => some ⟨step.format, value⟩
  | .error _ => none

/-- Read values one after the other.  Where a read fails, the next one goes on from the place where
it left the cursor. -/
def Cursor.readAll : Cursor → List Format → List Step × Cursor
  | cursor, [] => ([], cursor)
  | cursor, format :: rest =>
      let (outcome, next) := cursor.read format.read
      let (steps, last) := next.readAll rest
      (⟨format, cursor.offset, outcome, next.offset⟩ :: steps, last)

theorem Cursor.readAll_cons {cursor next : Cursor} {format : Format}
    {outcome : Except Error format.Value} (read : cursor.read format.read = (outcome, next))
    (rest : List Format) :
    cursor.readAll (format :: rest) =
      (⟨format, cursor.offset, outcome, next.offset⟩ :: (next.readAll rest).1,
        (next.readAll rest).2) := by
  rw [Cursor.readAll, read]

/-! ## What reads leave unread -/

open Reader (Advances advances_pure advances_fail advances_take)

theorem Scalar.advances_read (scalar : Scalar) : scalar.read.Advances :=
  (advances_take scalar.width).bind_pure scalar.ofBytes

namespace Format

theorem advances_readOption {α : Type} {absent present : Reader α} (tag : UInt32)
    (ofAbsent : absent.Advances) (ofPresent : present.Advances) :
    (readOption tag absent present).Advances := by
  unfold readOption
  split
  · exact ofAbsent
  · split
    · exact ofPresent
    · exact advances_fail _

theorem advances_readText : readText.Advances := by
  apply Advances.bind
  · apply Advances.orRestore
    apply (Scalar.advances_read .u32).bind
    intro length
    exact (advances_take length.toNat).bind_pure _
  · intro bytes
    split
    · exact advances_pure _
    · exact advances_fail _

theorem advances_readPair : readPair.Advances := by
  apply advances_readText.bind
  intro key
  exact advances_readText.bind_pure _

theorem advances_read (format : Format) : format.read.Advances := by
  cases format with
  | scalar item => exact item.advances_read
  | flag =>
      apply (Scalar.advances_read .u8).bind
      intro byte
      split
      · exact advances_pure _
      · split
        · exact advances_pure _
        · exact advances_fail _
  | accountState =>
      apply (Scalar.advances_read .u8).bind
      intro byte
      split
      · exact advances_pure _
      · exact advances_fail _
  | nonzero kind => exact (Scalar.advances_read (.blob kind)).bind_pure _
  | tagged item =>
      apply Advances.orRestore
      apply (Scalar.advances_read .u8).bind
      intro tag
      exact advances_readOption _ (advances_pure _) (item.advances_read.bind_pure _)
  | slotted item =>
      apply Advances.orRestore
      apply (Scalar.advances_read .u32).bind
      intro tag
      apply item.advances_read.bind
      intro value
      exact advances_readOption _ (advances_pure _) (advances_pure _)
  | text => exact advances_readText
  | pairs =>
      apply (Scalar.advances_read .u32).bind
      intro count
      exact advances_readPair.times _

end Format

/-! ## Reading what was put in -/

/-- A value that was put into a buffer is read back from where the buffer ended before, and the
cursor moves to where it ends now. -/
theorem Cursor.read_put {item : Item} (fits : item.Fits) (buffer rest : List UInt8) :
    (⟨buffer.length, item.write ++ rest⟩ : Cursor).read item.format.read =
      (.ok (item.format.normalize item.value), ⟨(put buffer item).length, rest⟩) := by
  have written : item.format.read.run (item.write ++ rest) =
      (.ok (item.format.normalize item.value), rest) :=
    item.format.run_read_append item.value fits rest
  have moved : buffer.length + ((item.write ++ rest).length - rest.length) =
      (put buffer item).length := by
    rw [List.length_append, Nat.add_sub_cancel, put, List.length_append]
  rw [Cursor.read, written, ← moved]

/-- Values that were put into a buffer are read back.  The cursor is always where the buffer ended
when the value read last was put in. -/
theorem Cursor.readAll_put {items : List Item} (fits : ∀ item ∈ items, item.Fits)
    (buffer rest : List UInt8) :
    let run := (⟨buffer.length, items.flatMap Item.write ++ rest⟩ : Cursor).readAll
      (items.map Item.format)
    run.1.map Step.item? = items.map (fun item => some item.readBack) ∧
      buffer.length :: run.1.map Step.stop = (items.scanl put buffer).map List.length ∧
      run.2 = ⟨(items.foldl put buffer).length, rest⟩ := by
  induction items generalizing buffer with
  | nil => exact ⟨rfl, rfl, rfl⟩
  | cons item items ih =>
      rcases List.forall_mem_cons.mp fits with ⟨itemFits, othersFit⟩
      rcases ih othersFit (put buffer item) with ⟨values, stops, last⟩
      have read := Cursor.read_put itemFits buffer (items.flatMap Item.write ++ rest)
      rw [List.map_cons, List.flatMap_cons, List.append_assoc, readAll_cons read]
      refine ⟨?_, ?_, last⟩
      · exact congrArg (some item.readBack :: ·) values
      · rw [List.scanl_cons]
        exact congrArg (buffer.length :: ·) stops

/-! ## Writing what was read -/

/-- What was read at a place is written as the bytes that were consumed, with zeros in the slot of
an absent value. -/
theorem Format.write_of_read (format : Format) {data : List UInt8} {offset : Nat}
    {value : format.Value} {next : Cursor} (inside : offset ≤ data.length)
    (read : (Cursor.ofOffset data offset).read format.read = (.ok value, next)) :
    offset ≤ next.offset ∧ next.offset ≤ data.length ∧ next = Cursor.ofOffset data next.offset ∧
      format.write value = format.clearAbsent ((data.take next.offset).drop offset) := by
  rcases format.follows_read.exists_run_of_advances format.advances_read inside with
    ⟨outcome, stop, -, ordered, stopInside, run⟩
  rw [Cursor.read_ofOffset ordered stopInside run] at read
  cases read
  rcases format.holds_of_run_read run with ⟨bytes, consumed, holds⟩
  have width : bytes.length = stop - offset := by
    have lengths := congrArg List.length consumed
    rw [List.length_append, List.length_drop, List.length_drop] at lengths
    omega
  have same : (data.take stop).drop offset = bytes := by
    rw [List.drop_take, consumed, List.take_left' width]
  exact ⟨ordered, stopInside, rfl, same ▸ holds.clearAbsent_eq.symm⟩

/-- The optional value at the front of data is written as the bytes that it takes. -/
theorem Format.encodeOption_of_decodeOption {item : Scalar} {data : List UInt8}
    {value : Option item.Value} {count : Nat}
    (decoded : decodeOption item data = .ok (value, count)) :
    encodeOption item value = data.take count := by
  rw [decodeOption] at decoded
  cases read : (Cursor.start data).read (tagged item).read with
  | mk outcome next =>
      rw [read] at decoded
      cases outcome with
      | error error => cases decoded
      | ok found =>
          cases decoded
          exact (write_of_read (tagged item) (Nat.zero_le data.length) read).2.2.2

/-- Values of any formats that were put into a buffer one after the other are read back from it in
the same order, up to optional byte strings of zeros, which come back absent.  Before the first read
and after each, the cursor is where the buffer ended before and after the value was put in, so that
the reads end where the bytes behind the buffer start.  At any place in any data, what is read is
written as the bytes that were consumed, with zeros in the slot of an absent value; an optional
value behind a tag byte is written as just the bytes that it takes. -/
theorem sequences_read_back :
    (∀ (items : List Item) (rest : List UInt8), (∀ item ∈ items, item.Fits) →
      let run := (Cursor.start (items.foldl put [] ++ rest)).readAll (items.map Item.format)
      run.1.map Step.item? = items.map (fun item => some item.readBack) ∧
        0 :: run.1.map Step.stop = (items.scanl put []).map List.length ∧
        run.2 = ⟨(items.foldl put []).length, rest⟩) ∧
    (∀ (format : Format) (data : List UInt8) (offset : Nat) (value : format.Value) (next : Cursor),
      offset ≤ data.length →
        (Cursor.ofOffset data offset).read format.read = (.ok value, next) →
          offset ≤ next.offset ∧ next.offset ≤ data.length ∧
            next = Cursor.ofOffset data next.offset ∧
            format.write value = format.clearAbsent ((data.take next.offset).drop offset)) ∧
    ∀ (item : Scalar) (data : List UInt8) (value : Option item.Value) (count : Nat),
      Format.decodeOption item data = .ok (value, count) →
        Format.encodeOption item value = data.take count := by
  refine ⟨?forward, ?backward, fun item data value count => Format.encodeOption_of_decodeOption⟩
  case forward =>
    intro items rest fits
    rw [foldl_put, List.nil_append]
    have readBack := Cursor.readAll_put fits [] rest
    rw [foldl_put, List.nil_append] at readBack
    exact readBack
  case backward =>
    intro format data offset value next inside read
    exact format.write_of_read inside read

/-- Values of many formats, one of which is an optional address that is present as zeros. -/
def mixedItems : List Item :=
  [⟨.u8, 200⟩, ⟨.i16, -2⟩, ⟨.float64, ⟨0x7ff8000000000001⟩⟩, ⟨.flag, true⟩,
    ⟨.nonzero .address, some (.zero .address)⟩, ⟨.tagged .u64, none⟩,
    ⟨.tagged .address, some (.zero .address)⟩, ⟨.slotted .u64, some 0⟩, ⟨.slotted .address, none⟩,
    ⟨.text, "gm\n"⟩, ⟨.blob (.raw 3), ⟨[1, 2, 3], rfl⟩⟩]

/-- All but the address of zeros come back as they were, and the byte behind them is left.  A slot
behind a tag of zero is written as zeros, whatever it held. -/
theorem read_back_mixedItems :
    (∀ item ∈ mixedItems, item.Fits) ∧
    ((Cursor.start (mixedItems.foldl put [] ++ [5])).readAll (mixedItems.map Item.format)).2 =
      ⟨136, [5]⟩ ∧
    (∃ next : Cursor, next.offset = 13 ∧ next.unread = [7] ∧
      (Cursor.ofOffset [9, 0, 0, 0, 0, 1, 2, 3, 4, 5, 6, 7, 8, 7] 1).read
        (Format.slotted .u64).read = (.ok none, next) ∧
      (Format.slotted .u64).write none = List.replicate 12 0) ∧
    Format.decodeOption .u64 [1, 5, 0, 0, 0, 0, 0, 0, 0, 9] = .ok (some 5, 9) ∧
    Format.encodeOption .u64 (some 5) = [1, 5, 0, 0, 0, 0, 0, 0, 0] := by
  rcases sequences_read_back with ⟨forward, backward, optional⟩
  have fits : ∀ item ∈ mixedItems, item.Fits := by
    simp only [mixedItems, List.forall_mem_cons, Item.Fits, Format.Fits, true_and,
      List.not_mem_nil, false_implies, implies_true, and_true]
    decide
  have read : (Cursor.ofOffset [9, 0, 0, 0, 0, 1, 2, 3, 4, 5, 6, 7, 8, 7] 1).read
      (Format.slotted .u64).read = (.ok none, ⟨13, [7]⟩) := rfl
  have decoded : Format.decodeOption .u64 [1, 5, 0, 0, 0, 0, 0, 0, 0, 9] = .ok (some 5, 9) := rfl
  refine ⟨fits, ?_, ⟨⟨13, [7]⟩, rfl, rfl, read, ?_⟩, decoded, ?_⟩
  · have length : (mixedItems.foldl put []).length = 136 := by decide +kernel
    rw [(forward mixedItems [5] fits).2.2, length]
  · exact (backward (.slotted .u64) _ 1 none _ (by decide) read).2.2.2
  · exact optional .u64 _ (some 5) 9 decoded

end TokenAccounts
