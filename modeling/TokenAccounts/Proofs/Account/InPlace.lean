import TokenAccounts.Proofs.Account.Length
import TokenAccounts.Proofs.Account.RoundTrip
import TokenAccounts.Proofs.Account.Store
import TokenAccounts.Proofs.Bytes.Region

/-!
# Edits in place

A value that is overwritten in its place by one of the same size leaves every header, every other
value and all that stands around the entries where they were, and so does another base record.
Main statement: such an edit changes no byte of the account but those of what is edited, and what
is found of every other type stays the same.
-/

namespace TokenAccounts

theorem ExtensionType.code_injective {left right : ExtensionType} (same : left.code = right.code) :
    left = right := by
  have found := ofCode?_code left
  rw [same, ofCode?_code] at found
  exact (Option.some.inj found).symm

namespace Extension

variable {wanted : ExtensionKind} {value held : wanted.Value} {before after : List Extension}
variable {type : ExtensionType}

@[simp] theorem code_normalize (extension : Extension) :
    extension.normalize.code = extension.code := by
  cases extension <;> rfl

/-- Whether a value can be written depends on its size alone. -/
theorem obstacle?_typed_congr (same : wanted.size value = wanted.size held) :
    (typed wanted value).obstacle? = (typed wanted held).obstacle? := by
  rw [obstacle?_typed, obstacle?_typed, same]

/-- A value has no part in what is found of another type. -/
theorem find?_code_of_ne (different : type ≠ .holding wanted) :
    (before ++ typed wanted value :: after).find? (·.code == type.code) =
      (before ++ after).find? (·.code == type.code) := by
  have foreign : ¬ wanted.code = type.code := by
    intro same
    apply different
    exact ExtensionType.code_injective same.symm
  rw [List.find?_append, List.find?_append, List.find?_cons_of_neg]
  simpa [Extension.code] using foreign

end Extension

namespace Account

open AccountLayout Extension

variable {kind : AccountKind} {account other : Account kind} {base : kind.Base}
variable {wanted : ExtensionKind} {value held : wanted.Value} {before after : List Extension}
variable {bytes otherBytes : List UInt8} {type : ExtensionType}

/-! ## The place of the first value -/

theorem findPlace?_append (absent : Absent wanted before) :
    findPlace? wanted (before ++ .typed wanted held :: after) =
      some (held, fun other => before ++ .typed wanted other :: after) := by
  induction before with
  | nil =>
      rw [List.nil_append, findPlace?, value?_typed]
      rfl
  | cons extension before ih =>
      have foreign : extension.value? wanted = none :=
        forall_value?_eq_none_iff.mpr absent extension List.mem_cons_self
      have others : Absent wanted before := fun other member =>
        absent other (List.mem_cons_of_mem _ member)
      rw [List.cons_append, findPlace?, foreign, ih others]
      rfl

/-- The first value of a kind that belongs to the account has a place. -/
theorem place_of_first (belongs : wanted.accountType = kind.type) (absent : Absent wanted before)
    (listed : account.extensions = some (before ++ .typed wanted held :: after)) :
    account.place wanted = .ok
      ⟨held, fun other => ⟨account.base, some (before ++ .typed wanted other :: after)⟩⟩ := by
  have allowed : checkBelongs kind (.holding wanted) = .ok () := checkBelongs_eq_ok_iff.mpr belongs
  rw [place, allowed, Outcome.ok_bind, listed, Option.bind_some, findPlace?_append absent]
  rfl

/-! ## Where things are written -/

/-- Where a value starts in the data of an account, behind the entries in front of it and its own
header. -/
def valueStart (before : List Extension) : Nat :=
  entriesStart + totalSize before + Entry.headerLength

theorem valueStart_eq (before : List Extension) :
    valueStart before = 166 + 4 + (before.map fun extension => 4 + extension.write.length).sum := by
  have sizes : totalSize before =
      (before.map fun extension => 4 + extension.write.length).sum := by
    rw [totalSize_eq_sum]
    simp only [Extension.length_write]
    rfl
  rw [valueStart, sizes, entriesStart, Entry.headerLength]
  omega

/-- A value lies in the data of its account as it is written, and in the same surroundings as every
other value of its size would. -/
theorem exists_surroundings
    (packed : (⟨base, some (before ++ .typed wanted held :: after)⟩ : Account kind).pack =
      .ok bytes) :
    ∃ front back, front.length = valueStart before ∧
      bytes = front ++ Record.write held ++ back ∧
      ∀ value, wanted.size value = wanted.size held →
        (⟨base, some (before ++ .typed wanted value :: after)⟩ : Account kind).pack =
          .ok (front ++ Record.write value ++ back) := by
  rcases pack_eq_ok_iff.mp packed with ⟨writable, written⟩
  have others := List.forall_mem_append.mp writable
  let total := entriesStart + totalSize (before ++ .typed wanted held :: after)
  let header := Entry.header wanted.code (wanted.size held)
  -- The frame and the entries in front, with the header, and then the entries behind.
  let front := frame kind (Record.write base) (writeAll before ++ header)
  let back := writeAll after ++ filler total
  have divided (value : wanted.Value) (same : wanted.size value = wanted.size held) :
      frame kind (Record.write base) (writeAll (before ++ .typed wanted value :: after) ++
        filler total) = front ++ Record.write value ++ back := by
    have entry : (typed wanted value).toEntry.write = header ++ Record.write value := by
      simp only [header, ← same, ← wanted.length_write_value value]
      rfl
    rw [writeAll_append, writeAll_cons, entry]
    simp only [front, back, List.append_assoc, frame_append]
  refine ⟨front, back, ?length, ?bytes, ?edited⟩
  case length =>
    rw [length_frame (AccountKind.length_write_base base), List.length_append, length_writeAll,
      Entry.length_header, valueStart, Nat.add_assoc]
  case bytes => exact written.trans (divided held rfl)
  case edited =>
    intro value same
    refine pack_eq_ok_iff.mpr ⟨?_, ?_⟩
    · rcases List.forall_mem_cons.mp others.2 with ⟨first, rest⟩
      exact List.forall_mem_append.mpr
        ⟨others.1, List.forall_mem_cons.mpr ⟨(obstacle?_typed_congr same).trans first, rest⟩⟩
    · have sameTotal : totalSize (before ++ .typed wanted value :: after) =
          totalSize (before ++ .typed wanted held :: after) := by
        simp only [totalSize_eq_sum, List.map_append, List.map_cons, Extension.size, same]
      rw [sameTotal, divided value same]

/-- Another base record takes the place of the first bytes. -/
theorem exists_surroundings_base (packed : account.pack = .ok bytes) :
    ∃ back, bytes = Record.write account.base ++ back ∧
      ∀ base : kind.Base,
        (⟨base, account.extensions⟩ : Account kind).pack = .ok (Record.write base ++ back) := by
  rcases account with ⟨held, extensions⟩
  cases extensions with
  | none =>
      cases packed
      exact ⟨[], (List.append_nil _).symm, fun base => congrArg Except.ok (List.append_nil _).symm⟩
  | some extensions =>
      rcases pack_eq_ok_iff.mp packed with ⟨writable, rfl⟩
      let entries := writeAll extensions ++ filler (entriesStart + totalSize extensions)
      have filled (base : kind.Base) := AccountKind.length_write_base base
      have divided (base : kind.Base) : frame kind (Record.write base) entries =
          Record.write base ++ (frame kind (Record.write held) entries).drop kind.baseLength :=
        (append_drop_frame (filled held) (filled base)).symm
      refine ⟨_, divided held, fun base => ?_⟩
      rw [← divided base]
      exact pack_eq_ok_iff.mpr ⟨writable, rfl⟩

/-! ## What is found afterwards -/

/-- In a written account, the search finds the bytes of the first extension of the type. -/
theorem findBytes_of_pack (belongs : type.accountType = kind.type)
    (packed : account.pack = .ok bytes) :
    findBytes kind bytes type =
      match account.list.find? (·.code == type.code) with
      | some extension => .ok extension.normalize.write
      | none => .error .extensionNotFound := by
  have normal : account.normalize.list = account.list.map Extension.normalize := by
    rcases account with ⟨base, extensions⟩
    cases extensions <;> rfl
  have codes : ((fun extension : Extension => extension.code == type.code) ∘
      Extension.normalize) = fun extension => extension.code == type.code := by
    funext extension
    simp
  rw [findBytes_of_unpack belongs (unpack_of_pack packed), normal, List.find?_map, codes]
  cases account.list.find? (·.code == type.code) <;> rfl

/-- What is found depends on nothing but the first extension of the type. -/
theorem findBytes_congr_of_pack (packed : account.pack = .ok bytes)
    (otherPacked : other.pack = .ok otherBytes)
    (same : other.list.find? (·.code == type.code) = account.list.find? (·.code == type.code)) :
    findBytes kind otherBytes type = findBytes kind bytes type := by
  by_cases belongs : type.accountType = kind.type
  · rw [findBytes_of_pack belongs packed, findBytes_of_pack belongs otherPacked, same]
  · have refused : checkBelongs kind type = .error _ := if_neg belongs
    rw [findBytes, findBytes, refused, Outcome.error_bind, Outcome.error_bind]

/-- Edits in place touch only their own bytes.  The first value of a kind that belongs to an account
has a place, and another value of the same size that is put there, as every value is of a kind with
a fixed length, is written where the first one was, with every byte outside that part as before.
Another base record changes no byte behind the base record.  What is found of any other type is the
same. -/
theorem edits_keep_other_bytes (packed : account.pack = .ok bytes) :
    (∀ (wanted : ExtensionKind) (before after : List Extension) (held value : wanted.Value),
      wanted.accountType = kind.type →
      account.extensions = some (before ++ .typed wanted held :: after) →
      Absent wanted before →
      wanted.size value = wanted.size held →
        let start := 166 + 4 + (before.map fun extension => 4 + extension.write.length).sum
        ∃ found edited, account.place wanted = .ok found ∧ found.value = held ∧
          (found.put value).pack = .ok edited ∧
          edited.length = bytes.length ∧
          (edited.drop start).take (wanted.size value) = Record.write value ∧
          AgreeOutside (Set.Ico start (start + wanted.size held)) edited bytes ∧
          ∀ type, type ≠ .holding wanted →
            findBytes kind edited type = findBytes kind bytes type) ∧
    (∀ wanted : ExtensionKind, wanted.fixedLength? ≠ none →
      ∀ value held : wanted.Value, wanted.size value = wanted.size held) ∧
    (∀ base : kind.Base, ∃ edited,
      (⟨base, account.extensions⟩ : Account kind).pack = .ok edited ∧
      edited.length = bytes.length ∧
      AgreeOutside (Set.Ico 0 kind.baseLength) edited bytes ∧
      ∀ type, findBytes kind edited type = findBytes kind bytes type) := by
  refine ⟨?value, ?fixed, ?base⟩
  case value =>
    intro wanted before after held value belongs listed absent same start
    have placed := place_of_first belongs absent listed
    rcases account with ⟨base, extensions⟩
    cases listed
    rcases exists_surroundings packed with ⟨front, back, length, rfl, edited⟩
    have changed := edited value same
    have width (value : wanted.Value) := wanted.length_write_value value
    have sameWidth : (Record.write value).length = (Record.write held).length := by
      rw [width, width, same]
    have outside := agreeOutside_append front back sameWidth
    rw [width held, length, valueStart_eq] at outside
    rw [valueStart_eq] at length
    refine ⟨_, _, placed, rfl, changed, ?length, ?own, outside, ?others⟩
    case length => simp only [List.length_append, sameWidth]
    case own =>
      rw [List.append_assoc, List.drop_left' length, List.take_left' (width value)]
    case others =>
      intro type different
      apply findBytes_congr_of_pack packed changed
      exact (find?_code_of_ne different).trans (find?_code_of_ne different).symm
  case fixed =>
    intro wanted isFixed value held
    rcases Option.ne_none_iff_exists'.mp isFixed with ⟨length, fixed⟩
    rw [ExtensionKind.size, ExtensionKind.size, fixed]
  case base =>
    intro base
    rcases exists_surroundings_base packed with ⟨back, rfl, edited⟩
    have width (base : kind.Base) := AccountKind.length_write_base base
    have sameWidth := (width base).trans (width account.base).symm
    have outside := agreeOutside_append [] back sameWidth
    rw [width account.base, List.length_nil, Nat.zero_add] at outside
    refine ⟨_, edited base, ?length, outside, ?found⟩
    case length => rw [List.length_append, List.length_append, sameWidth]
    case found => exact fun type => findBytes_congr_of_pack packed (edited base) rfl

/-- Metadata with a name and one row. -/
def labelled (name : String) : TokenMetadata where
  updateAuthority := none
  mint := .zero .address
  name := name
  symbol := ""
  uri := ""
  additionalMetadata := [("tier", "1")]

/-- A mint with raw data, two metadata and, between them, an authority to close it. -/
def twiceLabelledMint : Account .mint where
  base := ⟨none, 1000, 9, true, none⟩
  extensions := some [.unparsed 777 [7, 7], .typed .tokenMetadata (labelled "Gold"),
    .typed .mintCloseAuthority ⟨none⟩, .typed .tokenMetadata (labelled "Lead")]

/-- Another name of the same length changes just the 97 bytes of the first metadata. -/
theorem rename_twiceLabelledMint :
    ∃ bytes found edited, twiceLabelledMint.pack = .ok bytes ∧
      twiceLabelledMint.place .tokenMetadata = .ok found ∧ found.value = labelled "Gold" ∧
      (found.put (labelled "Zinc")).pack = .ok edited ∧
      (edited.drop 176).take 97 = Record.write (labelled "Zinc") ∧
      AgreeOutside (Set.Ico 176 273) edited bytes ∧
      findBytes .mint edited (.holding .mintCloseAuthority) =
        findBytes .mint bytes (.holding .mintCloseAuthority) := by
  obtain ⟨bytes, packed⟩ : ∃ bytes, twiceLabelledMint.pack = .ok bytes :=
    ⟨_, pack_eq_ok_iff.mpr ⟨by decide +kernel, rfl⟩⟩
  have absent : Absent .tokenMetadata [.unparsed 777 [7, 7]] := by
    intro value member
    simp at member
  obtain ⟨found, edited, placed, first, changed, -, own, outside, others⟩ :=
    (edits_keep_other_bytes packed).1 .tokenMetadata _ _ _ (labelled "Zinc") rfl rfl absent
      (by decide +kernel)
  exact ⟨bytes, found, edited, packed, placed, first, changed, own, outside,
    others _ (by decide)⟩

end Account

end TokenAccounts
