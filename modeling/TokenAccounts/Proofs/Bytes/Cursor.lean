import TokenAccounts.Proofs.Bytes.Indexed

/-!
# Cursors as positions

A cursor keeps what is left of some data and counts what it has read.  Main statement: if a read
never puts anything back in front of what was unread, then the count is a position in the data, the
cursor is moved from one position to a later one, and the read by position does the same.
-/

namespace TokenAccounts

variable {α β : Type}

namespace Reader

variable {reader : Reader α}

/-- Whether a read leaves an end of what was unread, also when it fails. -/
def Advances (reader : Reader α) : Prop := ∀ unread, (reader.run unread).2 <:+ unread

theorem advances_pure (value : α) : (pure value : Reader α).Advances :=
  fun unread => List.suffix_refl unread

theorem advances_fail (error : Error) : (fail error : Reader α).Advances :=
  fun unread => List.suffix_refl unread

theorem Advances.bind {next : α → Reader β} (first : reader.Advances)
    (others : ∀ value, (next value).Advances) : (reader >>= next).Advances := by
  intro unread
  have before := first unread
  rw [run_bind]
  cases read : reader.run unread with
  | mk outcome middle =>
      rw [read] at before
      cases outcome with
      | ok value => exact (others value middle).trans before
      | error error => exact before

theorem Advances.bind_pure (advances : reader.Advances) (result : α → β) :
    (reader >>= fun value => pure (result value)).Advances :=
  advances.bind fun value => advances_pure (result value)

theorem advances_take (width : Nat) : (take width).Advances := by
  intro unread
  simp only [take]
  split
  · exact List.drop_suffix width unread
  · exact List.suffix_refl unread

theorem Advances.orRestore (advances : reader.Advances) : (orRestore reader).Advances := by
  intro unread
  have before := advances unread
  simp only [Reader.orRestore]
  cases read : reader.run unread with
  | mk outcome rest =>
      rw [read] at before
      cases outcome with
      | ok value => exact before
      | error error => exact List.suffix_refl unread

theorem Advances.times (advances : reader.Advances) (count : Nat) :
    (reader.times count).Advances := by
  induction count with
  | zero => exact advances_pure []
  | succ count ih =>
      apply advances.bind
      intro first
      exact ih.bind_pure _

end Reader

namespace Cursor

/-- The place in data that is so many bytes behind the start. -/
def ofOffset (data : List UInt8) (offset : Nat) : Cursor := ⟨offset, data.drop offset⟩

/-- A read that stops at a position moves the cursor there. -/
theorem read_ofOffset {reader : Reader α} {data : List UInt8} {offset stop : Nat}
    {outcome : Except Error α} (ordered : offset ≤ stop) (inside : stop ≤ data.length)
    (read : reader.run (data.drop offset) = (outcome, data.drop stop)) :
    (ofOffset data offset).read reader = (outcome, ofOffset data stop) := by
  have moved : offset + ((data.drop offset).length - (data.drop stop).length) = stop := by
    rw [List.length_drop, List.length_drop]
    omega
  rw [Cursor.read, ofOffset, read]
  exact congrArg (fun place => (outcome, Cursor.mk place (data.drop stop))) moved

end Cursor

namespace IndexedReader.Follows

variable {indexed : IndexedReader α} {reader : Reader α} {data other : List UInt8}
variable {offset otherOffset : Nat}

/-- Reads by position go from one position to a later one. -/
theorem exists_run_of_advances (follows : indexed.Follows reader) (advances : reader.Advances)
    (inside : offset ≤ data.length) :
    ∃ outcome stop, indexed.run data offset = some (outcome, stop) ∧ offset ≤ stop ∧
      stop ≤ data.length ∧ reader.run (data.drop offset) = (outcome, data.drop stop) := by
  rcases follows.exists_run inside with ⟨outcome, stop, indexedRead, stopInside, read⟩
  have left : (data.drop stop).length ≤ (data.drop offset).length := by
    have suffix := advances (data.drop offset)
    rw [read] at suffix
    exact suffix.length_le
  rw [List.length_drop, List.length_drop] at left
  exact ⟨outcome, stop, indexedRead, by omega, stopInside, read⟩

/-- Where the same bytes are left, reads by position have the same outcome and consume as much. -/
theorem run_congr (follows : indexed.Follows reader) (advances : reader.Advances)
    (inside : offset ≤ data.length) (otherInside : otherOffset ≤ other.length)
    (same : data.drop offset = other.drop otherOffset) :
    ∃ outcome width, indexed.run data offset = some (outcome, offset + width) ∧
      indexed.run other otherOffset = some (outcome, otherOffset + width) := by
  rcases follows.exists_run_of_advances advances inside with
    ⟨outcome, stop, indexedRead, ordered, stopInside, read⟩
  rcases follows.exists_run_of_advances advances otherInside with
    ⟨otherOutcome, otherStop, otherIndexedRead, otherOrdered, otherStopInside, otherRead⟩
  rw [same, otherRead] at read
  rcases Prod.mk.inj read with ⟨sameOutcome, sameLeft⟩
  have unreadLengths := congrArg List.length same
  have leftLengths := congrArg List.length sameLeft
  simp only [List.length_drop] at unreadLengths leftLengths
  refine ⟨outcome, stop - offset, ?_, ?_⟩
  · rw [indexedRead, Nat.add_sub_cancel' ordered]
  · rw [otherIndexedRead, sameOutcome, show otherOffset + (stop - offset) = otherStop by omega]

end IndexedReader.Follows

end TokenAccounts
