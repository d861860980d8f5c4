import TokenAccounts.Proofs.Extension.Packing

/-!
# Lists of entries that are cut short

What was written of a list and then cut short still divides into entries: those that are whole, and
an ending where the cut is.  Between two entries and inside a header the cut does not show, and the
entries in front of it are read; inside a value it is an error that tells where it is.
-/

namespace TokenAccounts

namespace Entry

variable {entry : Entry}

/-- A part of an entry behind its header is an entry that is cut short. -/
theorem divides_take_write (sound : entry.Sound) {count : Nat} (headed : headerLength ≤ count)
    (short : count < entry.write.length) :
    Divides (entry.write.take count) []
      (.cut entry.code entry.value.length (entry.value.take (count - headerLength))) where
  data_eq := by
    have whole : (header entry.code entry.value.length).length ≤ count := by
      rw [length_header]
      exact headed
    rw [write, List.take_append, List.take_of_length_le whole, length_header]
    rfl
  sound := by simp
  valid := by
    rw [length_write] at short
    refine ⟨sound.code_ne_zero, sound.length_le, ?_⟩
    rw [List.length_take]
    omega

end Entry

namespace Extension

open Entry

variable {extensions before after : List Extension} {extension : Extension}
variable {rest : List UInt8} {count : Nat}

/-- Wherever a written list is cut short, it divides into entries from its front and an ending. -/
theorem exists_divides_take (writable : ∀ extension ∈ extensions, extension.obstacle? = none)
    (zeros count : Nat) :
    ∃ kept ending, kept <+: extensions ∧
      Divides ((writeAll extensions ++ List.replicate zeros 0).take count) (kept.map toEntry)
        ending := by
  induction extensions generalizing count with
  | nil =>
      have isTail : IsTail ((List.replicate zeros (0 : UInt8)).take count) := by
        rw [List.take_replicate]
        exact isTail_replicate_zero _
      exact ⟨[], .tail _, List.prefix_rfl, divides_of_isTail isTail⟩
  | cons extension extensions ih =>
      rcases List.forall_mem_cons.mp writable with ⟨first, others⟩
      have sound := sound_toEntry first
      rw [writeAll_cons, List.append_assoc]
      -- The cut is behind the first entry, or inside its value, or inside its header.
      by_cases whole : extension.toEntry.write.length ≤ count
      · rcases ih others (count - extension.toEntry.write.length) with
          ⟨kept, ending, front, divided⟩
        refine ⟨extension :: kept, ending, (List.prefix_cons_inj extension).mpr front, ?_⟩
        rw [List.take_append, List.take_of_length_le whole]
        exact divided.cons sound
      · have short := Nat.lt_of_not_le whole
        rw [List.take_append_of_le_length (Nat.le_of_lt short)]
        by_cases headed : headerLength ≤ count
        · exact ⟨[], _, List.nil_prefix, divides_take_write sound headed short⟩
        · refine ⟨[], .tail _, List.nil_prefix, divides_of_isTail (.inl ?_)⟩
          rw [List.length_take]
          exact Nat.lt_of_le_of_lt (Nat.min_le_left ..) (Nat.lt_of_not_le headed)

/-- What is read of a list that was written and cut short is a list from its front. -/
theorem prefix_of_unpackAll_take
    (writable : ∀ extension ∈ extensions, extension.obstacle? = none) {zeros : Nat}
    {others : List Extension}
    (read : unpackAll ((writeAll extensions ++ List.replicate zeros 0).take count) = .ok others) :
    others <+: extensions.map normalize := by
  rcases exists_divides_take writable zeros count with ⟨kept, ending, front, divided⟩
  rcases (unpackAll_eq_ok_iff divided).mp read with ⟨⟨unused, rfl⟩, -⟩
  have keptWritable : ∀ extension ∈ kept, extension.obstacle? = none := by
    intro extension member
    exact writable extension (front.subset member)
  rw [divided.data_eq, List.flatMap_map] at read
  have same := (unpackAll_writeAll keptWritable divided.valid).symm.trans read
  cases same
  exact front.map normalize

/-- A list that is cut short inside a value divides into the entries in front of that value and the
entry that is cut short. -/
theorem divides_take_cut
    (writable : ∀ other ∈ before ++ extension :: after, other.obstacle? = none)
    (headed : totalSize before + headerLength ≤ count)
    (short : count < totalSize before + headerLength + extension.size) :
    Divides ((writeAll (before ++ extension :: after) ++ rest).take count)
      (before.map toEntry)
      (.cut extension.code extension.size
        (extension.write.take (count - totalSize before - headerLength))) := by
  have sound : extension.toEntry.Sound := sound_toEntry (writable extension (by simp))
  have frontSound : ∀ entry ∈ before.map toEntry, entry.Sound := by
    intro entry member
    rcases List.mem_map.mp member with ⟨other, listed, rfl⟩
    exact sound_toEntry (writable other (by simp [listed]))
  have inside : count - totalSize before < extension.toEntry.write.length := by
    rw [length_write_toEntry]
    omega
  have split : (writeAll (before ++ extension :: after) ++ rest).take count =
      (before.map toEntry).flatMap Entry.write ++
        extension.toEntry.write.take (count - totalSize before) := by
    have passed : (writeAll before).length ≤ count := by
      rw [length_writeAll]
      omega
    rw [writeAll_append, writeAll_cons, List.append_assoc, List.append_assoc, List.take_append,
      List.take_of_length_le passed, length_writeAll,
      List.take_append_of_le_length (Nat.le_of_lt inside), List.flatMap_map]
    rfl
  have divided := divides_take_write sound (by omega) inside
  rw [split]
  simpa [toEntry] using divided.append frontSound

/-- The error for a cut inside a value tells what the entry declares and how much of it is left. -/
theorem unpackAll_take_cut
    (writable : ∀ other ∈ before ++ extension :: after, other.obstacle? = none)
    (headed : totalSize before + headerLength ≤ count)
    (short : count < totalSize before + headerLength + extension.size) :
    unpackAll ((writeAll (before ++ extension :: after) ++ rest).take count) =
      .error (.truncatedExtensionData extension.code extension.size
        (count - (totalSize before + headerLength))) := by
  refine (unpackAll_eq_error_iff (divides_take_cut writable headed short)).mpr
    (.inr ⟨?readable, _, _, _, rfl, ?left⟩)
  case readable =>
    intro entry member
    rcases List.mem_map.mp member with ⟨other, listed, rfl⟩
    exact ⟨other.normalize, unpack_write (writable other (by simp [listed]))⟩
  case left =>
    rw [List.length_take, length_write]
    congr 1
    omega

end Extension

end TokenAccounts
