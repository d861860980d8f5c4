import TokenAccounts.Account.Basic
import TokenAccounts.Proofs.Extension.Packing

/-!
# What stands around the entries of an account

The data of an extended account is a base record, zeros up to the tag, the tag and the entries.
The check accepts this frame and the bare base record, and what it reports otherwise is the first
thing that is wrong.  Reading and writing an account are here reduced to reading and writing its
base record and its entries.
-/

namespace TokenAccounts

namespace AccountKind

variable {kind : AccountKind}

theorem baseLength_le_tagIndex (kind : AccountKind) :
    kind.baseLength ≤ AccountLayout.tagIndex := by
  cases kind <;> decide

theorem baseLength_lt_multisig (kind : AccountKind) : kind.baseLength < Multisig.length := by
  cases kind <;> decide

theorem type_code_ne_zero (kind : AccountKind) : kind.type.code ≠ 0 := by
  cases kind <;> decide

@[simp] theorem length_write_base (base : kind.Base) :
    (Record.write base).length = kind.baseLength := by
  rw [Record.length_write]
  exact Record.size_of_width? kind.width?_base base

/-- No field of a base record is absent when it is all zero. -/
theorem settled_base (base : kind.Base) : Record.Settled base := by
  cases kind with
  | mint => exact ⟨trivial, trivial, trivial, trivial, trivial, trivial⟩
  | token =>
      exact ⟨trivial, trivial, trivial, trivial, trivial, trivial, trivial, trivial, trivial⟩

/-- Bytes of the right length are read as a base record just if they hold it. -/
theorem read_base_eq_ok_iff {bytes : List UInt8} {base : kind.Base}
    (filled : bytes.length = kind.baseLength) :
    (Record.read : Reader kind.Base).outcome bytes = .ok base ↔ Record.Holds bytes base := by
  constructor
  · intro outcome
    obtain ⟨left, run⟩ : ∃ left,
        (Record.read : Reader kind.Base).run bytes = (.ok base, left) :=
      ⟨_, Prod.ext outcome rfl⟩
    rcases Record.run_read_eq_ok_iff.mp run with ⟨front, rfl, held⟩
    rcases held.clearAbsent_eq kind.width?_base with ⟨-, length⟩
    rw [List.length_append, length] at filled
    obtain rfl : left = [] := List.eq_nil_of_length_eq_zero (by omega)
    rwa [List.append_nil]
  · intro held
    have run := Record.run_read_eq_ok_iff.mpr ⟨bytes, (List.append_nil bytes).symm, held⟩
    exact congrArg Prod.fst run

/-- A base record is read back as it was written. -/
theorem read_base_write (base : kind.Base) :
    (Record.read : Reader kind.Base).outcome (Record.write base) = .ok base := by
  have small : Record.size base < Format.countLimit := by
    rw [Record.size_of_width? kind.width?_base base]
    exact Nat.lt_trans kind.baseLength_lt_multisig (by decide)
  have run := Record.run_read_append base (Record.fits_of_size_lt base small) []
  rw [List.append_nil, (Record.normalize_eq_self_iff base).mpr (settled_base base)] at run
  exact congrArg Prod.fst run

end AccountKind

namespace Account

open AccountLayout

variable {kind : AccountKind} {data base entries : List UInt8}

/-! ## The frame -/

/-- The data of an extended account with these bytes for its base record and its entries. -/
def frame (kind : AccountKind) (base entries : List UInt8) : List UInt8 :=
  padTo tagIndex base ++ kind.type.code :: entries

/-- Whether data is that of an extended account, as far as the check looks. -/
structure Extended (kind : AccountKind) (data : List UInt8) : Prop where
  entriesStart_le : entriesStart ≤ data.length
  length_ne : data.length ≠ Multisig.length
  tag_eq : data[tagIndex]? = some kind.type.code
  gap_eq_zero : ∀ byte ∈ (data.take tagIndex).drop kind.baseLength, byte = 0

theorem Extended.baseLength_lt (extended : Extended kind data) :
    kind.baseLength < data.length :=
  Nat.lt_of_lt_of_le (Nat.lt_succ_of_le kind.baseLength_le_tagIndex) extended.entriesStart_le

/-- An extended account begins with as many bytes as its base record takes. -/
theorem Extended.length_take (extended : Extended kind data) :
    (data.take kind.baseLength).length = kind.baseLength :=
  List.length_take_of_le (Nat.le_of_lt extended.baseLength_lt)

theorem length_padTo_tagIndex (filled : base.length = kind.baseLength) :
    (padTo tagIndex base).length = tagIndex := by
  have fits := kind.baseLength_le_tagIndex
  simp only [padTo, List.length_append, List.length_replicate]
  omega

theorem length_frame (filled : base.length = kind.baseLength) :
    (frame kind base entries).length = entriesStart + entries.length := by
  rw [frame, List.length_append, length_padTo_tagIndex filled, List.length_cons, tagIndex,
    entriesStart]
  omega

theorem take_frame (filled : base.length = kind.baseLength) :
    (frame kind base entries).take kind.baseLength = base := by
  rw [frame, padTo, List.append_assoc, List.take_left' filled]

theorem drop_frame (filled : base.length = kind.baseLength) :
    (frame kind base entries).drop entriesStart = entries := by
  have front : (padTo tagIndex base ++ [kind.type.code]).length = entriesStart := by
    rw [List.length_append, length_padTo_tagIndex filled]
    rfl
  rw [frame, ← List.singleton_append, ← List.append_assoc, List.drop_left' front]

theorem frame_append (rest : List UInt8) :
    frame kind base entries ++ rest = frame kind base (entries ++ rest) := by
  simp [frame]

/-- A frame passes the check unless it is as long as a multisignature account. -/
theorem extended_frame (filled : base.length = kind.baseLength)
    (length_ne : (frame kind base entries).length ≠ Multisig.length) :
    Extended kind (frame kind base entries) where
  entriesStart_le := by
    rw [length_frame filled]
    exact Nat.le_add_right ..
  length_ne := length_ne
  tag_eq := by
    rw [frame, List.getElem?_append_right (Nat.le_of_eq (length_padTo_tagIndex filled)),
      length_padTo_tagIndex filled, Nat.sub_self, List.getElem?_cons_zero]
  gap_eq_zero := by
    intro byte member
    rw [frame, List.take_left' (length_padTo_tagIndex filled), padTo,
      List.drop_left' filled] at member
    exact List.eq_of_mem_replicate member

/-- Data that passes the check is the frame of its own parts. -/
theorem Extended.eq_frame (extended : Extended kind data) :
    data = frame kind (data.take kind.baseLength) (data.drop entriesStart) := by
  rcases List.getElem?_eq_some_iff.mp extended.tag_eq with ⟨inside, tag⟩
  have gap : (data.take tagIndex).drop kind.baseLength =
      List.replicate (tagIndex - kind.baseLength) 0 := by
    refine List.eq_replicate_iff.mpr ⟨?_, extended.gap_eq_zero⟩
    rw [List.length_drop, List.length_take_of_le (Nat.le_of_lt inside)]
  have inner : data.take kind.baseLength = (data.take tagIndex).take kind.baseLength := by
    rw [List.take_take, Nat.min_eq_left kind.baseLength_le_tagIndex]
  have front : padTo tagIndex (data.take kind.baseLength) = data.take tagIndex := by
    rw [padTo, extended.length_take, ← gap, inner, List.take_append_drop]
  rw [frame, front, ← tag, show entriesStart = tagIndex + 1 from rfl,
    ← List.drop_eq_getElem_cons inside, List.take_append_drop]

/-- Data up to the end of its entries is a frame around them. -/
theorem Extended.take_eq_frame (extended : Extended kind data) {unused : List UInt8}
    (divided : data.drop entriesStart = entries ++ unused) :
    data.take (entriesStart + entries.length) = frame kind (data.take kind.baseLength) entries ∧
      data.length = entriesStart + entries.length + unused.length := by
  have same := extended.eq_frame
  have length : (frame kind (data.take kind.baseLength) entries).length =
      entriesStart + entries.length := length_frame extended.length_take
  rw [divided, ← frame_append] at same
  constructor
  · exact (congrArg (List.take _) same).trans (List.take_left' length)
  · rw [← length, ← List.length_append, ← same]

/-- Bytes of the right length may take the place of the base record. -/
theorem append_drop_frame {other : List UInt8} (filled : base.length = kind.baseLength)
    (otherFilled : other.length = kind.baseLength) :
    other ++ (frame kind base entries).drop kind.baseLength = frame kind other entries := by
  simp only [frame, padTo, List.append_assoc]
  rw [List.drop_left' filled, filled, otherFilled]

/-! ## The check -/

/-- What the check reports: the first thing that is wrong with the frame. -/
inductive Misframed (kind : AccountKind) (data : List UInt8) : Error → Prop where
  /-- No account of this kind is this long. -/
  | size (wrong : data.length ≠ kind.baseLength ∧ data.length < entriesStart ∨
      data.length = Multisig.length) : Misframed kind data (.invalidAccountSize data.length)
  | uninitialized (length_ne : data.length ≠ Multisig.length)
      (tag_eq : data[tagIndex]? = some 0) : Misframed kind data .accountNotInitialized
  | mismatch {tag : UInt8} (length_ne : data.length ≠ Multisig.length)
      (tag_eq : data[tagIndex]? = some tag) (initialized : tag ≠ 0)
      (foreign : tag ≠ kind.type.code) :
      Misframed kind data (.accountTypeMismatch kind.type tag)
  | padding (length_ne : data.length ≠ Multisig.length)
      (tag_eq : data[tagIndex]? = some kind.type.code)
      (nonzero : ∃ byte ∈ (data.take tagIndex).drop kind.baseLength, byte ≠ 0) :
      Misframed kind data .invalidPadding

/-- Data is a bare base record, has the frame of an extended account, or has something wrong. -/
theorem framed_or_misframed (kind : AccountKind) (data : List UInt8) :
    data.length = kind.baseLength ∨ Extended kind data ∨ ∃ error, Misframed kind data error := by
  by_cases bare : data.length = kind.baseLength
  · exact .inl bare
  by_cases wrong : data.length < entriesStart ∨ data.length = Multisig.length
  · exact .inr (.inr ⟨_, .size (wrong.imp_left (And.intro bare))⟩)
  rcases not_or.mp wrong with ⟨long, length_ne⟩
  have inside : tagIndex < data.length := Nat.lt_of_succ_le (Nat.le_of_not_lt long)
  have tag_eq : data[tagIndex]? = some data[tagIndex] := List.getElem?_eq_getElem inside
  by_cases uninitialized : data[tagIndex] = 0
  · exact .inr (.inr ⟨_, .uninitialized length_ne (uninitialized ▸ tag_eq)⟩)
  by_cases own : data[tagIndex] = kind.type.code
  · by_cases clean : ∀ byte ∈ (data.take tagIndex).drop kind.baseLength, byte = 0
    · exact .inr (.inl ⟨Nat.le_of_not_lt long, length_ne, own ▸ tag_eq, clean⟩)
    · have nonzero : ∃ byte ∈ (data.take tagIndex).drop kind.baseLength, byte ≠ 0 := by
        simpa using clean
      exact .inr (.inr ⟨_, .padding length_ne (own ▸ tag_eq) nonzero⟩)
  · exact .inr (.inr ⟨_, .mismatch length_ne tag_eq uninitialized own⟩)

theorem check_of_bare (bare : data.length = kind.baseLength) : check kind data = .ok () := by
  have short := kind.baseLength_lt_multisig
  rw [check, if_neg (by omega), if_pos bare]

/-- Where there is a tag, the check is about the tag and what stands before it. -/
theorem check_of_tag {tag : UInt8} (length_ne : data.length ≠ Multisig.length)
    (tag_eq : data[tagIndex]? = some tag) : check kind data = checkTag kind data := by
  have fits := kind.baseLength_le_tagIndex
  rcases List.getElem?_eq_some_iff.mp tag_eq with ⟨inside, -⟩
  rw [check, if_neg (by omega), if_neg (by omega)]

theorem check_of_extended (extended : Extended kind data) : check kind data = .ok () := by
  have clean : ((data.take tagIndex).drop kind.baseLength).any (· != 0) = false := by
    simpa using extended.gap_eq_zero
  have initialized : ¬ kind.type.code = AccountType.uninitialized.code := kind.type_code_ne_zero
  rw [check_of_tag extended.length_ne extended.tag_eq]
  simp [checkTag, extended.tag_eq, clean, initialized]

theorem check_of_misframed {error : Error} (misframed : Misframed kind data error) :
    check kind data = .error error := by
  have fits := kind.baseLength_le_tagIndex
  cases misframed with
  | size wrong =>
      by_cases early : data.length < kind.baseLength ∨ data.length = Multisig.length
      · rw [check, if_pos early]
      · rcases not_or.mp early with ⟨-, length_ne⟩
        rcases wrong.resolve_right length_ne with ⟨bare, short⟩
        have noTag : data[tagIndex]? = none :=
          List.getElem?_eq_none (Nat.le_of_lt_succ short)
        rw [check, if_neg early, if_neg bare, checkTag, noTag]
  | uninitialized length_ne tag_eq =>
      rw [check_of_tag length_ne tag_eq, checkTag, tag_eq]
      rfl
  | mismatch length_ne tag_eq initialized foreign =>
      rw [check_of_tag length_ne tag_eq, checkTag, tag_eq]
      exact (if_neg initialized).trans (if_pos foreign)
  | padding length_ne tag_eq nonzero =>
      have initialized : ¬ kind.type.code = AccountType.uninitialized.code :=
        kind.type_code_ne_zero
      have dirty : ((data.take tagIndex).drop kind.baseLength).any (· != 0) = true := by
        simpa using nonzero
      rw [check_of_tag length_ne tag_eq]
      simp [checkTag, tag_eq, dirty, initialized]

/-! ## Reading and writing -/

theorem unpackBase_of_length_le (long : kind.baseLength ≤ data.length) :
    unpackBase kind data =
      (Record.read : Reader kind.Base).outcome (data.take kind.baseLength) :=
  if_neg (Nat.not_lt_of_le long)

/-- Data that is just a base record is read as an account without a list. -/
theorem unpack_of_bare (bare : data.length = kind.baseLength) :
    unpack kind data = (unpackBase kind data).map fun base => ⟨base, none⟩ := by
  rw [unpack, check_of_bare bare, Outcome.ok_bind]
  simp only [if_pos bare]
  cases unpackBase kind data <;> rfl

/-- Data with the frame of an extended account is read as its base record and its entries. -/
theorem unpack_of_extended (extended : Extended kind data) :
    unpack kind data = (do
      let base ← unpackBase kind data
      let extensions ← Extension.unpackAll (data.drop entriesStart)
      pure ⟨base, some extensions⟩) := by
  have bare : data.length ≠ kind.baseLength := Nat.ne_of_gt extended.baseLength_lt
  rw [unpack, check_of_extended extended, Outcome.ok_bind]
  simp only [if_neg bare]

theorem unpack_of_misframed {error : Error} (misframed : Misframed kind data error) :
    unpack kind data = .error error := by
  rw [unpack, check_of_misframed misframed, Outcome.error_bind]

/-- An account without a list is read from its base record alone. -/
theorem unpack_eq_ok_none_iff {record : kind.Base} :
    unpack kind data = .ok ⟨record, none⟩ ↔
      data.length = kind.baseLength ∧ unpackBase kind data = .ok record := by
  constructor
  · intro unpacked
    rcases framed_or_misframed kind data with bare | extended | ⟨error, misframed⟩
    · rw [unpack_of_bare bare] at unpacked
      rcases Outcome.map_eq_ok_iff.mp unpacked with ⟨found, based, same⟩
      cases same
      exact ⟨bare, based⟩
    · rw [unpack_of_extended extended] at unpacked
      rcases Outcome.bind_eq_ok_iff.mp unpacked with ⟨found, based, entriesRead⟩
      rcases Outcome.bind_eq_ok_iff.mp entriesRead with ⟨extensions, listed, ending⟩
      cases ending
    · rw [unpack_of_misframed misframed] at unpacked
      cases unpacked
  · intro conditions
    rcases conditions with ⟨bare, based⟩
    rw [unpack_of_bare bare, based]
    rfl

/-- An account with a list is read from a frame around the base record and the entries. -/
theorem unpack_eq_ok_some_iff {record : kind.Base} {extensions : List Extension} :
    unpack kind data = .ok ⟨record, some extensions⟩ ↔
      Extended kind data ∧ unpackBase kind data = .ok record ∧
        Extension.unpackAll (data.drop entriesStart) = .ok extensions := by
  constructor
  · intro unpacked
    rcases framed_or_misframed kind data with bare | extended | ⟨error, misframed⟩
    · rw [unpack_of_bare bare] at unpacked
      rcases Outcome.map_eq_ok_iff.mp unpacked with ⟨found, based, same⟩
      cases same
    · rw [unpack_of_extended extended] at unpacked
      rcases Outcome.bind_eq_ok_iff.mp unpacked with ⟨found, based, entriesRead⟩
      rcases Outcome.bind_eq_ok_iff.mp entriesRead with ⟨others, listed, ending⟩
      cases ending
      exact ⟨extended, based, listed⟩
    · rw [unpack_of_misframed misframed] at unpacked
      cases unpacked
  · intro conditions
    rcases conditions with ⟨extended, based, listed⟩
    rw [unpack_of_extended extended, based, Outcome.ok_bind, listed]
    rfl

/-- The zeros behind the entries of an account that would otherwise be as long as a
multisignature account. -/
def filler (length : Nat) : List UInt8 := if length = Multisig.length then [0, 0] else []

theorem exists_filler_eq (length : Nat) : ∃ count, filler length = List.replicate count 0 := by
  unfold filler
  split
  · exact ⟨2, rfl⟩
  · exact ⟨0, rfl⟩

theorem add_length_filler (length : Nat) :
    length + (filler length).length = avoidMultisig length := by
  unfold filler avoidMultisig
  split <;> rfl

theorem avoidMultisig_ne (length : Nat) : avoidMultisig length ≠ Multisig.length := by
  unfold avoidMultisig
  split <;> omega

theorem padTo_avoidMultisig (bytes : List UInt8) :
    padTo (avoidMultisig bytes.length) bytes = bytes ++ filler bytes.length := by
  unfold padTo avoidMultisig filler
  split
  · rw [Nat.add_sub_cancel_left]
    rfl
  · rw [Nat.sub_self]
    rfl

theorem length_frame_filler (base : kind.Base) (extensions : List Extension) :
    (frame kind (Record.write base) (Extension.writeAll extensions ++
      filler (entriesStart + Extension.totalSize extensions))).length =
        avoidMultisig (entriesStart + Extension.totalSize extensions) := by
  rw [length_frame (AccountKind.length_write_base base), List.length_append,
    Extension.length_writeAll, ← Nat.add_assoc, add_length_filler]

/-- An extended account is written as its frame, if all its extensions can be written. -/
theorem pack_eq_ok_iff {base : kind.Base} {extensions : List Extension} {bytes : List UInt8} :
    (⟨base, some extensions⟩ : Account kind).pack = .ok bytes ↔
      (∀ extension ∈ extensions, extension.obstacle? = none) ∧
        bytes = frame kind (Record.write base) (Extension.writeAll extensions ++
          filler (entriesStart + Extension.totalSize extensions)) := by
  have written (entries : List UInt8) :
      padTo tagIndex (Record.write base) ++ [kind.type.code] ++ entries =
        frame kind (Record.write base) entries := by
    simp [frame]
  have length : (frame kind (Record.write base) (Extension.writeAll extensions)).length =
      entriesStart + Extension.totalSize extensions := by
    rw [length_frame (AccountKind.length_write_base base), Extension.length_writeAll]
  rw [← frame_append, ← length, ← padTo_avoidMultisig]
  constructor
  · intro packed
    rcases Outcome.bind_eq_ok_iff.mp packed with ⟨entries, entriesPacked, ending⟩
    rcases Extension.packAll_eq_ok_iff.mp entriesPacked with ⟨writable, rfl⟩
    simp only [written] at ending
    cases ending
    exact ⟨writable, rfl⟩
  · intro conditions
    rcases conditions with ⟨writable, rfl⟩
    refine Outcome.bind_eq_ok_iff.mpr
      ⟨_, Extension.packAll_eq_ok_iff.mpr ⟨writable, rfl⟩, ?_⟩
    simp only [written]
    rfl

/-- An account is refused for the first of its extensions that cannot be written. -/
theorem pack_eq_error_iff {account : Account kind} {error : Error} :
    account.pack = .error error ↔
      account.list.findSome? Extension.obstacle? = some error := by
  cases account with
  | mk base extensions =>
      cases extensions with
      | none => simp [pack, list]
      | some extensions =>
          rw [show list ⟨base, some extensions⟩ = extensions from rfl,
            ← Extension.packAll_eq_error_iff]
          constructor
          · intro failed
            rcases Outcome.bind_eq_error_iff.mp failed with refused | ⟨_, _, ending⟩
            · exact refused
            · cases ending
          · intro refused
            exact Outcome.bind_eq_error_iff.mpr (.inl refused)

end Account

end TokenAccounts
