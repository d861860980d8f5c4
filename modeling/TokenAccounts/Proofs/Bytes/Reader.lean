import TokenAccounts.Bytes.Reader

/-!
# What a read consumed and why it failed

A successful read is taken apart into the reads it is made of, so that the bytes it consumed are
known from its value.  For failures there is one closure property: every failure of a composite
read is a failure of one of its parts.  How often a repeated read is tried is bounded by the bytes
that are there, whatever the number of times asked for.
-/

namespace TokenAccounts

namespace Reader

variable {α β : Type} {reader : Reader α} {unread rest : List UInt8}

/-! ## Successful reads -/

theorem run_pure_eq_ok_iff {held value : α} :
    (pure held : Reader α).run unread = (.ok value, rest) ↔ held = value ∧ unread = rest := by
  simp

theorem run_bind_eq_ok_iff {next : α → Reader β} {value : β} :
    (reader >>= next).run unread = (.ok value, rest) ↔
      ∃ first middle, reader.run unread = (.ok first, middle) ∧
        (next first).run middle = (.ok value, rest) := by
  constructor
  · intro read
    rw [run_bind] at read
    cases firstRead : reader.run unread with
    | mk outcome middle =>
        rw [firstRead] at read
        cases outcome with
        | ok first => exact ⟨first, middle, rfl, read⟩
        | error error => cases read
  · intro conditions
    rcases conditions with ⟨first, middle, firstRead, read⟩
    rw [run_bind_of_ok firstRead]
    exact read

theorem run_orRestore_eq_ok_iff {value : α} :
    (orRestore reader).run unread = (.ok value, rest) ↔
      reader.run unread = (.ok value, rest) := by
  constructor
  · intro restored
    simp only [orRestore] at restored
    cases read : reader.run unread with
    | mk outcome left =>
        rw [read] at restored
        cases outcome with
        | ok held => exact restored
        | error error => cases restored
  · exact run_orRestore_of_ok

/-- Bytes that are taken stand in front of the ones that are left. -/
theorem run_take_eq_ok_iff {width : Nat} {bytes : { bytes : List UInt8 // bytes.length = width }} :
    (take width).run unread = (.ok bytes, rest) ↔ unread = bytes.val ++ rest := by
  constructor
  · intro taken
    simp only [take] at taken
    split at taken
    · cases taken
      simp
    · cases taken
  · intro same
    subst same
    exact run_take_append bytes rest

/-- If every single read consumes what is written of its value, so does a repeated one. -/
theorem eq_flatMap_of_run_times {write : α → List UInt8} {property : α → Prop}
    (each : ∀ unread value rest, reader.run unread = (.ok value, rest) →
      unread = write value ++ rest ∧ property value)
    {count : Nat} {values : List α} (read : (times reader count).run unread = (.ok values, rest)) :
    unread = values.flatMap write ++ rest ∧ values.length = count ∧
      ∀ value ∈ values, property value := by
  induction count generalizing unread values with
  | zero =>
      rcases run_pure_eq_ok_iff.mp read with ⟨rfl, rfl⟩
      simp
  | succ count ih =>
      rw [times] at read
      rcases run_bind_eq_ok_iff.mp read with ⟨first, middle, firstRead, read⟩
      rcases run_bind_eq_ok_iff.mp read with ⟨others, left, othersRead, read⟩
      rcases run_pure_eq_ok_iff.mp read with ⟨rfl, rfl⟩
      rcases each _ _ _ firstRead with ⟨rfl, firstHolds⟩
      rcases ih othersRead with ⟨rfl, rfl, othersHold⟩
      refine ⟨by simp, rfl, ?_⟩
      intro value member
      rcases List.mem_cons.mp member with rfl | member
      · exact firstHolds
      · exact othersHold value member

/-! ## Failed reads -/

variable {error : Error}

theorem run_bind_eq_error_iff {next : α → Reader β} :
    (reader >>= next).run unread = (.error error, rest) ↔
      reader.run unread = (.error error, rest) ∨
        ∃ first middle, reader.run unread = (.ok first, middle) ∧
          (next first).run middle = (.error error, rest) := by
  rw [run_bind]
  cases reader.run unread with
  | mk outcome middle =>
      cases outcome with
      | ok first =>
          constructor
          · intro failed
            exact .inr ⟨first, middle, rfl, failed⟩
          · rintro (failed | ⟨_, _, same, failed⟩)
            · cases failed
            · cases same
              exact failed
      | error cause => simp

/-- A read that gives back what it consumed fails in the place where it began. -/
theorem run_orRestore_eq_error_iff :
    (orRestore reader).run unread = (.error error, rest) ↔
      unread = rest ∧ ∃ left, reader.run unread = (.error error, left) := by
  simp only [orRestore]
  cases reader.run unread with
  | mk outcome left => cases outcome <;> simp [and_comm]

theorem run_take_eq_error_iff {width : Nat} :
    (take width).run unread = (.error error, rest) ↔
      unread = rest ∧ unread.length < width ∧ .bufferTooShort width unread.length = error := by
  simp only [take]
  split
  · next enough => simp [Nat.not_lt_of_le enough]
  · next short => simp [Nat.lt_of_not_le short, and_comm]

/-- Every failure of a read is an allowed one. -/
def FailsOnly (allowed : Error → Prop) (reader : Reader α) : Prop :=
  ∀ unread error rest, reader.run unread = (.error error, rest) → allowed error

variable {allowed : Error → Prop}

theorem FailsOnly.mono {others : Error → Prop} (fails : FailsOnly allowed reader)
    (included : ∀ error, allowed error → others error) : FailsOnly others reader := by
  intro unread error rest failed
  exact included error (fails unread error rest failed)

theorem failsOnly_pure (value : α) : FailsOnly allowed (pure value : Reader α) := by
  intro unread error rest failed
  simp at failed

theorem failsOnly_fail {error : Error} (isAllowed : allowed error) :
    FailsOnly allowed (fail error : Reader α) := by
  intro unread found rest failed
  cases failed
  exact isAllowed

theorem FailsOnly.bind {next : α → Reader β} (first : FailsOnly allowed reader)
    (others : ∀ value, FailsOnly allowed (next value)) : FailsOnly allowed (reader >>= next) := by
  intro unread error rest failed
  rw [run_bind] at failed
  cases read : reader.run unread with
  | mk outcome left =>
      rw [read] at failed
      cases outcome with
      | ok value => exact others value _ _ _ failed
      | error cause =>
          cases failed
          exact first _ _ _ read

/-- What is made of a value that was read does not fail. -/
theorem FailsOnly.bind_pure (first : FailsOnly allowed reader) (result : α → β) :
    FailsOnly allowed (reader >>= fun value => pure (result value)) := by
  apply first.bind
  intro value
  exact failsOnly_pure (result value)

theorem failsOnly_take {width : Nat}
    (isAllowed : ∀ remaining, remaining < width → allowed (.bufferTooShort width remaining)) :
    FailsOnly allowed (take width) := by
  intro unread error rest failed
  simp only [take] at failed
  split at failed
  · cases failed
  · cases failed
    exact isAllowed _ (by omega)

theorem FailsOnly.orRestore (fails : FailsOnly allowed reader) :
    FailsOnly allowed (orRestore reader) := by
  intro unread error rest failed
  rw [Reader.orRestore] at failed
  cases read : reader.run unread with
  | mk outcome left =>
      simp only [read] at failed
      cases outcome with
      | ok value => cases failed
      | error cause =>
          cases failed
          exact fails _ _ _ read

theorem FailsOnly.times (fails : FailsOnly allowed reader) (count : Nat) :
    FailsOnly allowed (times reader count) := by
  induction count with
  | zero => exact failsOnly_pure []
  | succ count ih =>
      rw [Reader.times]
      apply fails.bind
      intro first
      exact ih.bind_pure _

/-! ## Repeated reads -/

/-- The same read a number of times, up to the first failure, with how often it was tried. -/
def timesCounting (reader : Reader α) :
    Nat → List UInt8 → Nat × (Except Error (List α) × List UInt8)
  | 0, unread => (0, .ok [], unread)
  | count + 1, unread =>
      match reader.run unread with
      | (.ok first, rest) =>
          let (rounds, outcome, left) := timesCounting reader count rest
          (rounds + 1, outcome.map (first :: ·), left)
      | (.error error, rest) => (1, .error error, rest)

/-- Counting does not change what is read. -/
theorem timesCounting_snd (reader : Reader α) (count : Nat) (unread : List UInt8) :
    (timesCounting reader count unread).2 = (times reader count).run unread := by
  induction count generalizing unread with
  | zero => rfl
  | succ count ih =>
      rw [timesCounting, times, run_bind]
      cases reader.run unread with
      | mk outcome rest =>
          cases outcome with
          | ok first =>
              simp only [run_bind, ← ih rest]
              obtain ⟨rounds, others, left⟩ := timesCounting reader count rest
              cases others <;> rfl
          | error error => rfl

theorem timesCounting_fst_of_ok {first : α} (read : reader.run unread = (.ok first, rest))
    (count : Nat) :
    (timesCounting reader (count + 1) unread).1 = (timesCounting reader count rest).1 + 1 := by
  rw [timesCounting, read]

theorem timesCounting_fst_of_error {error : Error} (read : reader.run unread = (.error error, rest))
    (count : Nat) : (timesCounting reader (count + 1) unread).1 = 1 := by
  rw [timesCounting, read]

/-- What is counted is the reads that were made: all that were asked for, if each of them succeeds,
and else those that succeeded and the one that failed after them. -/
theorem timesCounting_cases (reader : Reader α) (count : Nat) (unread : List UInt8) :
    (∃ values rest, (times reader count).run unread = (.ok values, rest) ∧
      (timesCounting reader count unread).1 = count) ∨
    ∃ done values middle error rest, done < count ∧
      (times reader done).run unread = (.ok values, middle) ∧
      reader.run middle = (.error error, rest) ∧
      (timesCounting reader count unread).1 = done + 1 := by
  induction count generalizing unread with
  | zero => exact .inl ⟨[], unread, rfl, rfl⟩
  | succ count ih =>
      cases read : reader.run unread with
      | mk outcome rest =>
          cases outcome with
          | error error =>
              exact .inr ⟨0, [], unread, error, rest, Nat.succ_pos count, rfl, read,
                timesCounting_fst_of_error read count⟩
          | ok first =>
              rw [timesCounting_fst_of_ok read]
              have after {done : Nat} {others : List α} {left : List UInt8}
                  (othersRead : (times reader done).run rest = (.ok others, left)) :
                  (times reader (done + 1)).run unread = (.ok (first :: others), left) := by
                rw [times, run_bind_of_ok read, run_bind_of_ok othersRead, run_pure]
              rcases ih rest with ⟨others, left, othersRead, counted⟩ |
                ⟨done, others, middle, error, left, fewer, othersRead, failed, counted⟩
              · exact .inl ⟨_, left, after othersRead, congrArg Nat.succ counted⟩
              · exact .inr ⟨done + 1, _, middle, error, left, Nat.succ_lt_succ fewer,
                  after othersRead, failed, congrArg Nat.succ counted⟩

/-- If every read that succeeds consumes some bytes, a number of them consumes as many times
these. -/
theorem length_add_mul_le_of_run_times {step : Nat}
    (consumes : ∀ unread value rest, reader.run unread = (.ok value, rest) →
      rest.length + step ≤ unread.length) {count : Nat} {values : List α}
    (read : (times reader count).run unread = (.ok values, rest)) :
    rest.length + count * step ≤ unread.length := by
  induction count generalizing unread values with
  | zero =>
      obtain ⟨-, rfl⟩ := run_pure_eq_ok_iff.mp read
      exact Nat.le_of_eq (by rw [Nat.zero_mul, Nat.add_zero])
  | succ count ih =>
      rw [times] at read
      obtain ⟨first, middle, firstRead, read⟩ := run_bind_eq_ok_iff.mp read
      obtain ⟨others, left, othersRead, read⟩ := run_bind_eq_ok_iff.mp read
      obtain ⟨-, rfl⟩ := run_pure_eq_ok_iff.mp read
      have consumed := consumes _ _ _ firstRead
      have othersConsumed := ih othersRead
      rw [Nat.succ_mul]
      omega

/-- A read that consumes some bytes whenever it succeeds is tried once for each time these are
there, and once more at most. -/
theorem timesCounting_fst_le {step : Nat} (positive : 0 < step)
    (consumes : ∀ unread value rest, reader.run unread = (.ok value, rest) →
      rest.length + step ≤ unread.length) (count : Nat) (unread : List UInt8) :
    (timesCounting reader count unread).1 ≤ unread.length / step + 1 := by
  have succeeded {done : Nat} {values : List α} {rest : List UInt8}
      (read : (times reader done).run unread = (.ok values, rest)) :
      done ≤ unread.length / step := by
    rw [Nat.le_div_iff_mul_le positive]
    exact Nat.le_trans (Nat.le_add_left _ _) (length_add_mul_le_of_run_times consumes read)
  obtain ⟨values, rest, read, counted⟩ |
    ⟨done, values, middle, error, rest, -, read, -, counted⟩ :=
    timesCounting_cases reader count unread
  · rw [counted]
    exact Nat.le_succ_of_le (succeeded read)
  · rw [counted]
    exact Nat.succ_le_succ (succeeded read)

end Reader

end TokenAccounts
