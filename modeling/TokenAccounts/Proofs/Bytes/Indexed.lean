import TokenAccounts.Bytes.Reader

/-!
# Reading by position

Reads can be written with positions in the data instead of what is left of it.  Then bytes are taken
from one position to another, and how many are left is a difference.  Neither need exist: a position
may lie behind the end, and a difference may be negative.  Main statement: if reads by position
never ask for such a thing and do the same as reads from the front, then so do reads composed of
them.
-/

namespace TokenAccounts

/-- The bytes from one position to another, if the positions are in order and in the data. -/
def slice? (data : List UInt8) (start stop : Nat) : Option (List UInt8) :=
  if start ≤ stop ∧ stop ≤ data.length then some ((data.take stop).drop start) else none

theorem slice?_of_le {data : List UInt8} {start stop : Nat} (ordered : start ≤ stop)
    (inside : stop ≤ data.length) : slice? data start stop = some ((data.take stop).drop start) :=
  if_pos ⟨ordered, inside⟩

/-- So many bytes behind a position, if there are as many. -/
theorem slice?_add {data : List UInt8} {start width : Nat} (inside : start + width ≤ data.length) :
    slice? data start (start + width) = some ((data.drop start).take width) := by
  rw [slice?_of_le (Nat.le_add_right ..) inside, List.drop_take, Nat.add_sub_cancel_left]

/-- A difference, if it is not negative. -/
def subtract? (left right : Nat) : Option Nat := if right ≤ left then some (left - right) else none

theorem subtract?_of_le {left right : Nat} (ordered : right ≤ left) :
    subtract? left right = some (left - right) := if_pos ordered

/-- An outcome, which need not exist if something out of range was asked for. -/
abbrev Checked := ExceptT Error Option

namespace Checked

variable {α β : Type}

/-- An outcome that exists. -/
def settled (outcome : Except Error α) : Checked α := ExceptT.mk (some outcome)

theorem settled_ok_bind (value : α) (next : α → Checked β) :
    settled (.ok value) >>= next = next value := rfl

theorem some_bind (value : α) (next : α → Checked β) :
    (liftM (some value) : Checked α) >>= next = next value := rfl

end Checked

/-- A read by position: from the data and where to read to an outcome and where to read on.  There
is neither if something out of range was asked for. -/
structure IndexedReader (α : Type) where
  run : List UInt8 → Nat → Option (Except Error α × Nat)

namespace IndexedReader

variable {α β : Type}

protected def pure (value : α) : IndexedReader α := ⟨fun _ offset => some (.ok value, offset)⟩

protected def bind (reader : IndexedReader α) (next : α → IndexedReader β) : IndexedReader β :=
  ⟨fun data offset => do
    match ← reader.run data offset with
    | (.ok value, stop) => (next value).run data stop
    | (.error error, stop) => some (.error error, stop)⟩

instance : Monad IndexedReader where
  pure := IndexedReader.pure
  bind := IndexedReader.bind

def fail (error : Error) : IndexedReader α := ⟨fun _ offset => some (.error error, offset)⟩

/-- How many bytes are left. -/
def remaining : IndexedReader Nat := ⟨fun data offset => do
  let left ← subtract? data.length offset
  some (.ok left, offset)⟩

/-- The next bytes, as many as asked for; nothing is consumed if there are fewer. -/
def take (width : Nat) : IndexedReader { bytes : List UInt8 // bytes.length = width } :=
  ⟨fun data offset => do
    let left ← subtract? data.length offset
    if left < width then some (.error (.bufferTooShort width left), offset)
    else
      let bytes ← slice? data offset (offset + width)
      if filled : bytes.length = width then some (.ok ⟨bytes, filled⟩, offset + width)
      else none⟩

/-- A read that goes back to where it began if it fails. -/
def orRestore (reader : IndexedReader α) : IndexedReader α := ⟨fun data offset => do
  match ← reader.run data offset with
  | (.ok value, stop) => some (.ok value, stop)
  | (.error error, _) => some (.error error, offset)⟩

/-- The same read a number of times, up to the first failure. -/
def times (reader : IndexedReader α) : Nat → IndexedReader (List α)
  | 0 => pure []
  | count + 1 => do
      let first ← reader
      let others ← times reader count
      pure (first :: others)

/-- The outcome of a read of data from its start. -/
def outcome (reader : IndexedReader α) (data : List UInt8) : Checked α := do
  let (outcome, _) ← reader.run data 0
  Checked.settled outcome

/-- Whether a read by position always exists and does the same as a read from the front. -/
structure Follows (indexed : IndexedReader α) (reader : Reader α) : Prop where
  exists_run : ∀ {data offset}, offset ≤ data.length → ∃ outcome stop,
    indexed.run data offset = some (outcome, stop) ∧ stop ≤ data.length ∧
      reader.run (data.drop offset) = (outcome, data.drop stop)

theorem follows_pure (value : α) : Follows (pure value) (pure value) where
  exists_run inside := ⟨_, _, rfl, inside, rfl⟩

theorem follows_fail (error : Error) :
    Follows (fail error : IndexedReader α) (Reader.fail error) where
  exists_run inside := ⟨_, _, rfl, inside, rfl⟩

variable {indexed : IndexedReader α} {reader : Reader α}

theorem Follows.bind {indexedNext : α → IndexedReader β} {next : α → Reader β}
    (first : indexed.Follows reader) (others : ∀ value, (indexedNext value).Follows (next value)) :
    (indexed >>= indexedNext).Follows (reader >>= next) where
  exists_run {data offset} inside := by
    obtain ⟨outcome, middle, indexedRead, middleInside, read⟩ := first.exists_run inside
    cases outcome with
    | error error =>
        refine ⟨.error error, middle, ?_, middleInside, by rw [Reader.run_bind, read]⟩
        simp only [Bind.bind, IndexedReader.bind, indexedRead, Option.bind_some]
    | ok value =>
        obtain ⟨result, stop, indexedRest, stopInside, rest⟩ :=
          (others value).exists_run middleInside
        refine ⟨result, stop, ?_, stopInside, by rw [Reader.run_bind_of_ok read, rest]⟩
        simp only [Bind.bind, IndexedReader.bind, indexedRead, Option.bind_some, indexedRest]

theorem Follows.bind_pure (follows : indexed.Follows reader) (result : α → β) :
    (indexed >>= fun value => pure (result value)).Follows
      (reader >>= fun value => pure (result value)) :=
  follows.bind fun value => follows_pure (result value)

/-- Asking how many bytes are left does nothing. -/
theorem Follows.after_remaining (follows : indexed.Follows reader) :
    (remaining >>= fun _ => indexed).Follows reader where
  exists_run {data offset} inside := by
    obtain ⟨outcome, stop, indexedRead, stopInside, read⟩ := follows.exists_run inside
    refine ⟨outcome, stop, ?_, stopInside, read⟩
    simp only [Bind.bind, IndexedReader.bind, remaining, subtract?_of_le inside, Option.bind_some,
      indexedRead]

theorem follows_take (width : Nat) : (take width).Follows (Reader.take width) where
  exists_run {data offset} inside := by
    have left : data.length - offset = (data.drop offset).length := List.length_drop.symm
    simp only [take, Reader.take, subtract?_of_le inside, Option.bind_eq_bind, Option.bind_some,
      left]
    by_cases enough : width ≤ (data.drop offset).length
    · have stopInside : offset + width ≤ data.length := by omega
      have filled : ((data.drop offset).take width).length = width :=
        List.length_take_of_le enough
      refine ⟨.ok ⟨_, filled⟩, offset + width, ?_, stopInside, ?_⟩
      · rw [if_neg (Nat.not_lt_of_le enough), slice?_add stopInside]
        exact dif_pos filled
      · rw [dif_pos enough, List.drop_drop]
    · refine ⟨_, offset, if_pos (Nat.lt_of_not_le enough), inside, dif_neg enough⟩

theorem Follows.orRestore (follows : indexed.Follows reader) :
    indexed.orRestore.Follows (Reader.orRestore reader) where
  exists_run {data offset} inside := by
    obtain ⟨outcome, stop, indexedRead, stopInside, read⟩ := follows.exists_run inside
    simp only [IndexedReader.orRestore, Reader.orRestore, indexedRead, read, Option.bind_eq_bind,
      Option.bind_some]
    cases outcome with
    | ok value => exact ⟨_, _, rfl, stopInside, rfl⟩
    | error error => exact ⟨_, _, rfl, inside, rfl⟩

theorem Follows.times (follows : indexed.Follows reader) (count : Nat) :
    (indexed.times count).Follows (reader.times count) := by
  induction count with
  | zero => exact follows_pure []
  | succ count ih =>
      apply follows.bind
      intro first
      exact ih.bind_pure _

theorem Follows.outcome_eq (follows : indexed.Follows reader) (data : List UInt8) :
    indexed.outcome data = Checked.settled (reader.outcome data) := by
  obtain ⟨outcome, stop, indexedRead, -, read⟩ := follows.exists_run (Nat.zero_le data.length)
  rw [List.drop_zero] at read
  rw [IndexedReader.outcome, indexedRead, Checked.some_bind, Reader.outcome, read]

end IndexedReader

end TokenAccounts
