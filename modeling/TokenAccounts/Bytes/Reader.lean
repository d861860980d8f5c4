import TokenAccounts.Error

/-!
# Reading from the front of a byte string

A reader looks at the unread bytes and yields a value or a cause of failure, together with the
bytes that are left unread.  A failed read says what it left too, because a run of reads goes on
after a failure.
-/

namespace TokenAccounts

/-- A read: from the unread bytes to an outcome and the bytes then left unread. -/
structure Reader (α : Type) where
  run : List UInt8 → Except Error α × List UInt8

namespace Reader

variable {α β : Type}

/-- Yield a value and read nothing. -/
protected def pure (value : α) : Reader α := ⟨fun unread => (.ok value, unread)⟩

/-- Read on with what was read, unless that failed. -/
protected def bind (reader : Reader α) (next : α → Reader β) : Reader β := ⟨fun unread =>
  match reader.run unread with
  | (.ok value, rest) => (next value).run rest
  | (.error error, rest) => (.error error, rest)⟩

instance : Monad Reader where
  pure := Reader.pure
  bind := Reader.bind

/-- Fail and read nothing. -/
def fail (error : Error) : Reader α := ⟨fun unread => (.error error, unread)⟩

/-- The next bytes, as many as asked for; nothing is consumed if there are fewer. -/
def take (width : Nat) : Reader { bytes : List UInt8 // bytes.length = width } := ⟨fun unread =>
  if enough : width ≤ unread.length then
    (.ok ⟨unread.take width, by simp [enough]⟩, unread.drop width)
  else
    (.error (.bufferTooShort width unread.length), unread)⟩

/-- A read that gives back everything it consumed if it fails. -/
def orRestore (reader : Reader α) : Reader α := ⟨fun unread =>
  match reader.run unread with
  | (.ok value, rest) => (.ok value, rest)
  | (.error error, _) => (.error error, unread)⟩

/-- The same read a number of times, up to the first failure. -/
def times (reader : Reader α) : Nat → Reader (List α)
  | 0 => pure []
  | count + 1 => do
      let first ← reader
      let others ← times reader count
      pure (first :: others)

/-- The outcome of a read, without what it left. -/
def outcome (reader : Reader α) (data : List UInt8) : Except Error α := (reader.run data).1

@[simp] theorem run_pure (value : α) (unread : List UInt8) :
    (pure value : Reader α).run unread = (.ok value, unread) := rfl

@[simp] theorem run_fail (error : Error) (unread : List UInt8) :
    (fail error : Reader α).run unread = (.error error, unread) := rfl

theorem run_bind (reader : Reader α) (next : α → Reader β) (unread : List UInt8) :
    (reader >>= next).run unread =
      match reader.run unread with
      | (.ok value, rest) => (next value).run rest
      | (.error error, rest) => (.error error, rest) := rfl

/-- A read that succeeds is read on from where it stopped. -/
theorem run_bind_of_ok {reader : Reader α} {next : α → Reader β} {unread rest : List UInt8}
    {value : α} (read : reader.run unread = (.ok value, rest)) :
    (reader >>= next).run unread = (next value).run rest := by
  simp [run_bind, read]

theorem run_orRestore_of_ok {reader : Reader α} {unread rest : List UInt8} {value : α}
    (read : reader.run unread = (.ok value, rest)) :
    (orRestore reader).run unread = (.ok value, rest) := by
  simp [orRestore, read]

/-- Taking as many bytes as stand in front takes just those. -/
theorem run_take_append {width : Nat} (bytes : { bytes : List UInt8 // bytes.length = width })
    (rest : List UInt8) : (take width).run (bytes.val ++ rest) = (.ok bytes, rest) := by
  obtain ⟨bytes, rfl⟩ := bytes
  simp [take]

/-- Values that are each read back are read back one after the other. -/
theorem run_times_append {reader : Reader α} {write : α → List UInt8} {values : List α}
    (inverse : ∀ value ∈ values, ∀ rest, reader.run (write value ++ rest) = (.ok value, rest))
    (rest : List UInt8) :
    (times reader values.length).run (values.flatMap write ++ rest) = (.ok values, rest) := by
  induction values with
  | nil => rfl
  | cons value values ih =>
      have first := inverse value (by simp) (values.flatMap write ++ rest)
      have others := ih fun value member => inverse value (by simp [member])
      rw [List.length_cons, times, List.flatMap_cons, List.append_assoc, run_bind_of_ok first,
        run_bind_of_ok others, run_pure]

end Reader

/-- A place in a byte string: how much has been read, and what has not. -/
structure Cursor where
  offset : Nat
  unread : List UInt8
  deriving Repr

namespace Cursor

/-- The place before the first byte. -/
def start (data : List UInt8) : Cursor := ⟨0, data⟩

/-- Read once; the offset moves by what the read consumed, also when it fails. -/
def read {α : Type} (cursor : Cursor) (reader : Reader α) : Except Error α × Cursor :=
  let (outcome, rest) := reader.run cursor.unread
  (outcome, ⟨cursor.offset + (cursor.unread.length - rest.length), rest⟩)

end Cursor

end TokenAccounts
