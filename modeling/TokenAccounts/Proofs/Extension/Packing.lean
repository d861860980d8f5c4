import TokenAccounts.Proofs.Extension.Entries
import TokenAccounts.Proofs.Extension.Value

/-!
# Lists of extensions and the entries they are written as

A list of extensions is written entry by entry.  Read back with unused bytes behind it, it is the
list of the normal forms; and a list that was read is written as the entries it was read from.
-/

namespace TokenAccounts

namespace Entry

/-- Zeros of any number are no entry. -/
theorem isTail_replicate_zero (count : Nat) : IsTail (List.replicate count 0) := by
  by_cases few : count < headerLength
  · exact .inl (by simpa using few)
  · have long : 2 ≤ count := by
      simp only [headerLength] at few
      omega
    refine .inr ⟨by simpa using Nat.le_of_not_lt few, ?_⟩
    rw [List.take_replicate, Nat.min_eq_left long]
    rfl

end Entry

namespace Extension

open Entry

variable {extension : Extension} {extensions : List Extension} {entries : List Entry}

/-- The bytes of a list of extensions, one entry after the other. -/
def writeAll (extensions : List Extension) : List UInt8 :=
  extensions.flatMap fun extension => extension.toEntry.write

theorem writeAll_append (front back : List Extension) :
    writeAll (front ++ back) = writeAll front ++ writeAll back :=
  List.flatMap_append

theorem writeAll_cons (extension : Extension) (extensions : List Extension) :
    writeAll (extension :: extensions) = extension.toEntry.write ++ writeAll extensions :=
  List.flatMap_cons

@[simp] theorem length_write_toEntry (extension : Extension) :
    extension.toEntry.write.length = headerLength + extension.size := by
  simp [toEntry]

@[simp] theorem length_writeAll (extensions : List Extension) :
    (writeAll extensions).length = totalSize extensions := by
  induction extensions with
  | nil => rfl
  | cons extension extensions ih =>
      rw [writeAll_cons, List.length_append, length_write_toEntry, ih, totalSize]

/-- A list is written just if all its extensions can be. -/
theorem packAll_eq_ok_iff {bytes : List UInt8} :
    packAll extensions = .ok bytes ↔
      (∀ extension ∈ extensions, extension.obstacle? = none) ∧ bytes = writeAll extensions := by
  unfold packAll
  split
  · next error found =>
      have obstructed : ¬ ∀ extension ∈ extensions, extension.obstacle? = none := by
        rw [← List.findSome?_eq_none_iff, found]
        exact Option.some_ne_none error
      simp [obstructed]
  · next clear =>
      have writable := List.findSome?_eq_none_iff.mp clear
      rw [Except.ok.injEq, eq_comm, writeAll]
      exact ⟨fun same => ⟨writable, same⟩, fun ⟨_, same⟩ => same⟩

/-- A list is refused for the first of its extensions that cannot be written. -/
theorem packAll_eq_error_iff {error : Error} :
    packAll extensions = .error error ↔ extensions.findSome? obstacle? = some error := by
  unfold packAll
  split
  · next found => simp [found]
  · next clear => simp [clear]

theorem sound_toEntry (writable : extension.obstacle? = none) : extension.toEntry.Sound := by
  rcases extension.obstacle?_eq_none_iff.mp writable with ⟨unreserved, -, small⟩
  exact ⟨unreserved, by simpa [toEntry] using small⟩

/-- What is written of a list divides into the entries of its extensions. -/
theorem divides_writeAll (writable : ∀ extension ∈ extensions, extension.obstacle? = none)
    {unused : List UInt8} (isTail : IsTail unused) :
    Divides (writeAll extensions ++ unused) (extensions.map toEntry) (.tail unused) where
  data_eq := by rw [writeAll, List.flatMap_map, Ending.bytes]
  sound := by
    intro entry member
    rcases List.mem_map.mp member with ⟨extension, listed, rfl⟩
    exact sound_toEntry (writable extension listed)
  valid := isTail

/-- Written and read back, with unused bytes behind it, a list is the list of the normal forms. -/
theorem unpackAll_writeAll (writable : ∀ extension ∈ extensions, extension.obstacle? = none)
    {unused : List UInt8} (isTail : IsTail unused) :
    unpackAll (writeAll extensions ++ unused) = .ok (extensions.map normalize) := by
  refine (unpackAll_eq_ok_iff (divides_writeAll writable isTail)).mpr ⟨⟨unused, rfl⟩, ?_⟩
  rw [List.forall₂_map_left_iff, List.forall₂_map_right_iff, List.forall₂_same]
  intro extension member
  exact unpack_write (writable extension member)

/-- An extension that was read from a sound entry is written as that entry again. -/
theorem of_unpack_entry {entry : Entry} (sound : entry.Sound)
    (unpacked : entry.unpack = .ok extension) :
    extension.toEntry = entry ∧ extension.obstacle? = none ∧ extension.Settled := by
  rcases unpack_eq_ok_iff.mp unpacked with ⟨code, data, proper, -, settled⟩
  cases entry
  cases code
  cases data
  refine ⟨rfl, extension.obstacle?_eq_none_iff.mpr ⟨sound.code_ne_zero, proper, ?_⟩, settled⟩
  rw [← extension.length_write]
  exact sound.length_le

/-- A list that was read is written as the entries it was read from. -/
theorem of_unpack_entries (sound : ∀ entry ∈ entries, entry.Sound)
    (unpacked : List.Forall₂ (fun entry extension => entry.unpack = .ok extension)
      entries extensions) :
    extensions.map toEntry = entries ∧
      ∀ extension ∈ extensions, extension.obstacle? = none ∧ extension.Settled := by
  induction unpacked with
  | nil => simp
  | cons first _ ih =>
      rcases List.forall_mem_cons.mp sound with ⟨firstSound, othersSound⟩
      rcases of_unpack_entry firstSound first with ⟨rfl, writable, settled⟩
      rcases ih othersSound with ⟨rfl, others⟩
      exact ⟨rfl, List.forall_mem_cons.mpr ⟨⟨writable, settled⟩, others⟩⟩

/-- A list that was read is written as the bytes it was read from, up to unused bytes. -/
theorem of_unpackAll {data : List UInt8} (unpacked : unpackAll data = .ok extensions) :
    ∃ unused, data = writeAll extensions ++ unused ∧ IsTail unused ∧
      ∀ extension ∈ extensions, extension.obstacle? = none ∧ extension.Settled := by
  rcases exists_divides data with ⟨entries, ending, divided⟩
  rcases (unpackAll_eq_ok_iff divided).mp unpacked with ⟨⟨unused, rfl⟩, held⟩
  rcases of_unpack_entries divided.sound held with ⟨rfl, writable⟩
  refine ⟨unused, ?_, divided.valid, writable⟩
  rw [divided.data_eq, List.flatMap_map, writeAll, Ending.bytes]

end Extension

end TokenAccounts
