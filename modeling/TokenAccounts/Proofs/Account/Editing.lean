import TokenAccounts.Proofs.Account.Store

/-!
# Editing accounts

A program that holds an account may add and overwrite extensions, edit metadata, replace the base
record, drop the list of extensions, and write the account and read it back.  Main statement:
whatever edits are made of an account that was read or is new, it can be written unless metadata
has grown too long, and what is got from its list agrees with the types that the list shows.
-/

namespace TokenAccounts

namespace Account

open AccountLayout

variable {kind : AccountKind}

/-! ## Edits -/

/-- One edit of an account. -/
inductive Edit (kind : AccountKind) where
  | add (wanted : ExtensionKind) (value : wanted.Value)
  /-- Put a value in the place of the first extension of its kind. -/
  | overwrite (wanted : ExtensionKind) (value : wanted.Value)
  | updateMetadata (field : MetadataField) (text : String)
  | removeMetadata (key : String)
  | replaceBase (base : kind.Base)
  | dropExtensions
  /-- Write the account and read it back. -/
  | reload

/-- The account as it is after an edit, if the edit can be made. -/
def Edit.perform (account : Account kind) : Edit kind → Except Error (Account kind)
  | .add wanted value => account.add wanted value
  | .overwrite wanted value => account.set wanted value
  | .updateMetadata field text => do
      let metadata ← account.get .tokenMetadata
      account.set .tokenMetadata (metadata.update field text)
  | .removeMetadata key => do
      let metadata ← account.get .tokenMetadata
      let edited ← metadata.removeKey key
      account.set .tokenMetadata edited
  | .replaceBase base => .ok { account with base }
  | .dropExtensions => .ok { account with extensions := none }
  | .reload => do
      let bytes ← account.pack
      unpack kind bytes

/-- An edit that cannot be made leaves the account as it is. -/
def edit (account : Account kind) (change : Edit kind) : Account kind :=
  match change.perform account with
  | .ok edited => edited
  | .error _ => account

/-- The accounts that a program can come to hold: those that were read, those that are new and
have no extensions, and what edits make of them. -/
inductive Reachable : Account kind → Prop where
  | unpacked {data : List UInt8} {account : Account kind}
      (unpacked : unpack kind data = .ok account) : Reachable account
  | bare (base : kind.Base) : Reachable ⟨base, none⟩
  | empty (base : kind.Base) : Reachable ⟨base, some []⟩
  | edited {account : Account kind} (reached : Reachable account) (change : Edit kind) :
      Reachable (account.edit change)

/-! ## What an edit puts in the list -/

variable {account changed : Account kind} {extension : Extension}
variable {wanted : ExtensionKind} {value : wanted.Value}

/-- Overwriting a value puts nothing in the list but the new value. -/
theorem mem_of_set (overwritten : account.set wanted value = .ok changed)
    (member : extension ∈ changed.list) :
    extension ∈ account.list ∨
      wanted.accountType = kind.type ∧ extension = .typed wanted value := by
  rcases Outcome.bind_eq_ok_iff.mp overwritten with ⟨found, placed, same⟩
  rcases exists_of_place placed with ⟨before, after, listed, -, puts⟩
  cases same
  rw [puts value, list, Option.getD_some, List.mem_append, List.mem_cons] at member
  rw [list, listed, Option.getD_some, List.mem_append, List.mem_cons]
  rcases member with earlier | new | later
  · exact .inl (.inl earlier)
  · exact .inr ⟨belongs_of_get (get_of_place placed), new⟩
  · exact .inl (.inr (.inr later))

/-- After an edit, an extension was there before, or is a value of a kind that belongs to the
account, or was read from data. -/
theorem Edit.mem_of_perform {change : Edit kind} (performed : change.perform account = .ok changed)
    (member : extension ∈ changed.list) :
    extension ∈ account.list ∨
      (∃ wanted value, wanted.accountType = kind.type ∧ extension = .typed wanted value) ∨
      extension.obstacle? = none := by
  -- Edits of metadata end in an overwrite, too.
  have overwritten {wanted : ExtensionKind} {value : wanted.Value}
      (performed : account.set wanted value = .ok changed) :
      extension ∈ account.list ∨
        (∃ wanted value, wanted.accountType = kind.type ∧ extension = .typed wanted value) ∨
        extension.obstacle? = none := by
    cases mem_of_set performed member with
    | inl old => exact .inl old
    | inr new => exact .inr (.inl ⟨_, _, new⟩)
  cases change with
  | add wanted value =>
      rcases add_eq_ok_iff.mp performed with ⟨belongs, rfl⟩
      cases List.mem_append.mp member with
      | inl old => exact .inl old
      | inr new => exact .inr (.inl ⟨_, _, belongs, List.mem_singleton.mp new⟩)
  | overwrite wanted value => exact overwritten performed
  | updateMetadata field text =>
      rcases Outcome.bind_eq_ok_iff.mp performed with ⟨metadata, -, performed⟩
      exact overwritten performed
  | removeMetadata key =>
      rcases Outcome.bind_eq_ok_iff.mp performed with ⟨metadata, -, performed⟩
      rcases Outcome.bind_eq_ok_iff.mp performed with ⟨removed, -, performed⟩
      exact overwritten performed
  | replaceBase base =>
      cases performed
      exact .inl member
  | dropExtensions =>
      cases performed
      cases member
  | reload =>
      rcases Outcome.bind_eq_ok_iff.mp performed with ⟨bytes, -, unpacked⟩
      exact .inr (.inr (readBack_of_unpack unpacked extension member).1)

/-! ## What an account can come to hold -/

/-- Whether an account of a kind can come to hold an extension: it can be written, or it is
metadata of a mint, which edits may make too long. -/
def Admits (kind : AccountKind) (extension : Extension) : Prop :=
  extension.obstacle? = none ∨
    kind = .mint ∧ ∃ metadata, extension = .typed .tokenMetadata metadata

theorem admits_typed (belongs : wanted.accountType = kind.type) (value : wanted.Value) :
    Admits kind (.typed wanted value) := by
  by_cases metadata : wanted = .tokenMetadata
  · subst metadata
    cases kind with
    | mint => exact .inr ⟨rfl, value, rfl⟩
    | token => cases belongs
  · exact .inl (Extension.obstacle?_typed_of_ne metadata value)

/-- An edit puts nothing in the list that the account does not admit. -/
theorem admits_edit (admitted : ∀ extension ∈ account.list, Admits kind extension)
    (change : Edit kind) : ∀ extension ∈ (account.edit change).list, Admits kind extension := by
  intro extension member
  unfold edit at member
  split at member
  · next changed performed =>
      rcases Edit.mem_of_perform performed member with
        old | ⟨wanted, value, belongs, rfl⟩ | writable
      · exact admitted extension old
      · exact admits_typed belongs value
      · exact .inl writable
  · exact admitted extension member

theorem Reachable.admits (reachable : Reachable account) :
    ∀ extension ∈ account.list, Admits kind extension := by
  induction reachable with
  | unpacked unpacked =>
      intro extension member
      exact .inl (readBack_of_unpack unpacked extension member).1
  | bare base =>
      intro extension member
      cases member
  | empty base =>
      intro extension member
      cases member
  | edited _ change admitted => exact admits_edit admitted change

/-! ## What that says of an extension -/

theorem code_ne_zero_of_admits (admitted : Admits kind extension) : extension.code ≠ 0 := by
  cases admitted with
  | inl writable => exact (extension.obstacle?_eq_none_iff.mp writable).1
  | inr metadata =>
      rcases metadata with ⟨-, metadata, rfl⟩
      exact ExtensionKind.code_ne_zero .tokenMetadata

theorem proper_of_admits (admitted : Admits kind extension) : extension.Proper := by
  cases admitted with
  | inl writable => exact (extension.obstacle?_eq_none_iff.mp writable).2.1
  | inr metadata =>
      rcases metadata with ⟨-, metadata, rfl⟩
      trivial

theorem unparsed_of_admits {code : UInt16} {data : List UInt8}
    (admitted : Admits kind (.unparsed code data)) :
    ExtensionType.ofCode? code = none ∧ data.length ≤ Entry.maxLength := by
  cases admitted with
  | inl writable =>
      rcases (Extension.obstacle?_eq_none_iff _).mp writable with ⟨reserved, proper, small⟩
      have unreserved : code ≠ 0 := reserved
      have unknown : ExtensionKind.ofCode? code = none := proper
      refine ⟨?_, small⟩
      rw [ExtensionType.ofCode?, if_neg unreserved, unknown]
      rfl
  | inr metadata =>
      rcases metadata with ⟨-, metadata, same⟩
      cases same

/-- Metadata is written just if it is short enough. -/
theorem obstacle?_metadata (metadata : TokenMetadata) :
    (Extension.typed .tokenMetadata metadata).obstacle? =
      if Record.size metadata ≤ Entry.maxLength then none
      else some (.extensionTooLarge (Record.size metadata)) :=
  Extension.obstacle?_typed .tokenMetadata metadata

/-- The only thing that an account admits and that cannot be written is metadata that is too
long. -/
theorem obstacle?_eq_some_iff_of_admits (admitted : Admits kind extension) {error : Error} :
    extension.obstacle? = some error ↔
      ∃ metadata, extension = .typed .tokenMetadata metadata ∧
        Entry.maxLength < Record.size metadata ∧
        error = .extensionTooLarge (Record.size metadata) := by
  constructor
  · intro refused
    cases admitted with
    | inl writable =>
        rw [writable] at refused
        cases refused
    | inr metadata =>
        rcases metadata with ⟨-, metadata, rfl⟩
        rw [obstacle?_metadata] at refused
        split at refused
        · cases refused
        · next long =>
            cases refused
            exact ⟨metadata, rfl, Nat.lt_of_not_le long, rfl⟩
  · intro conditions
    rcases conditions with ⟨metadata, rfl, long, rfl⟩
    rw [obstacle?_metadata, if_neg (Nat.not_le_of_lt long)]

theorem obstacle?_eq_none_iff_of_admits (admitted : Admits kind extension) :
    extension.obstacle? = none ↔
      ∀ metadata, extension = .typed .tokenMetadata metadata →
        Record.size metadata ≤ Entry.maxLength := by
  rw [Option.eq_none_iff_forall_ne_some]
  constructor
  · intro clear metadata same
    by_contra long
    refine clear _ ((obstacle?_eq_some_iff_of_admits admitted).mpr ⟨metadata, same, ?_, rfl⟩)
    exact Nat.lt_of_not_le long
  · intro small error refused
    rcases (obstacle?_eq_some_iff_of_admits admitted).mp refused with ⟨metadata, same, long, -⟩
    exact absurd (small metadata same) (Nat.not_le_of_lt long)

/-! ## What that says of the account -/

/-- An account that holds what it admits is refused for the first metadata that is too long. -/
theorem pack_eq_error_iff_of_admits
    (admitted : ∀ extension ∈ account.list, Admits kind extension) {error : Error} :
    account.pack = .error error ↔
      ∃ before metadata after,
        account.list = before ++ .typed .tokenMetadata metadata :: after ∧
        (∀ other, .typed .tokenMetadata other ∈ before → Record.size other ≤ Entry.maxLength) ∧
        Entry.maxLength < Record.size metadata ∧
        error = .extensionTooLarge (Record.size metadata) := by
  rw [pack_eq_error_iff, List.findSome?_eq_some_iff]
  constructor
  · intro refused
    rcases refused with ⟨before, extension, after, listed, obstructed, clear⟩
    have first : Admits kind extension := admitted extension (by simp [listed])
    rcases (obstacle?_eq_some_iff_of_admits first).mp obstructed with ⟨metadata, rfl, long, rfl⟩
    refine ⟨before, metadata, after, listed, ?_, long, rfl⟩
    intro other member
    have otherAdmitted := admitted _ (listed ▸ List.mem_append_left _ member)
    exact (obstacle?_eq_none_iff_of_admits otherAdmitted).mp (clear _ member) other rfl
  · intro conditions
    rcases conditions with ⟨before, metadata, after, listed, small, long, rfl⟩
    have first : Admits kind (.typed .tokenMetadata metadata) := admitted _ (by simp [listed])
    refine ⟨before, _, after, listed,
      (obstacle?_eq_some_iff_of_admits first).mpr ⟨metadata, rfl, long, rfl⟩, ?_⟩
    intro other member
    have otherAdmitted := admitted _ (listed ▸ List.mem_append_left _ member)
    refine (obstacle?_eq_none_iff_of_admits otherAdmitted).mpr ?_
    rintro metadata rfl
    exact small metadata member

/-- A token account that holds what it admits can be written. -/
theorem exists_pack_of_admits {account : Account .token}
    (admitted : ∀ extension ∈ account.list, Admits .token extension) :
    ∃ bytes, account.pack = .ok bytes := by
  cases packed : account.pack with
  | ok bytes => exact ⟨bytes, rfl⟩
  | error error =>
      rw [pack_eq_error_iff] at packed
      rcases List.exists_of_findSome?_eq_some packed with ⟨extension, member, obstructed⟩
      cases admitted extension member with
      | inl writable =>
          rw [writable] at obstructed
          cases obstructed
      | inr metadata => cases metadata.1

/-! ## Types and values -/

theorem type?_eq_holding_iff :
    extension.type? = some (.holding wanted) ↔ extension.code = wanted.code := by
  rw [Extension.type?]
  constructor
  · intro known
    exact (ExtensionType.code_of_ofCode? known).symm
  · intro same
    rw [same]
    exact ExtensionType.ofCode?_code (.holding wanted)

/-- The list shows a type just if there is a value to be got. -/
theorem mem_types_iff (belongs : wanted.accountType = kind.type)
    (proper : ∀ extension ∈ account.list, extension.Proper) :
    .holding wanted ∈ account.types ↔ ∃ value, account.get wanted = .ok value := by
  have got : (∃ value, account.get wanted = .ok value) ↔
      ∃ extension ∈ account.list, extension.value? wanted ≠ none := by
    simp only [get_eq_ok_iff belongs]
    rw [← Option.isSome_iff_exists, List.findSome?_isSome_iff]
    simp only [Option.ne_none_iff_isSome]
  rw [got, types, List.mem_filterMap]
  apply exists_congr
  intro extension
  apply and_congr_right
  intro member
  rw [type?_eq_holding_iff, Ne, Extension.value?_eq_none_iff (proper extension member), not_not]

/-- Accounts stay fit to be written.  However an account that was read or is new is edited, no
extension has the reserved code, and raw data has a code without a type and fits in an entry.  The
account is refused just for the first metadata that is too long for an entry, so that a token
account is never refused; and the types that its list shows are those that a value can be got of. -/
theorem Reachable.encodable (reachable : Reachable account) :
    (∀ extension ∈ account.list, extension.code ≠ 0) ∧
    (∀ code data, .unparsed code data ∈ account.list →
      ExtensionType.ofCode? code = none ∧ data.length ≤ 65535) ∧
    (∀ error, account.pack = .error error ↔
      ∃ before metadata after,
        account.list = before ++ .typed .tokenMetadata metadata :: after ∧
        (∀ other, .typed .tokenMetadata other ∈ before → Record.size other ≤ 65535) ∧
        65535 < Record.size metadata ∧ error = .extensionTooLarge (Record.size metadata)) ∧
    (kind = .token → ∃ bytes, account.pack = .ok bytes) ∧
    (∀ type, type.accountType = kind.type →
      (type ∈ account.types ↔
        ∃ wanted value, type = .holding wanted ∧ account.get wanted = .ok value)) := by
  have admitted := reachable.admits
  refine ⟨?codes, ?raw, fun error => pack_eq_error_iff_of_admits admitted, ?token, ?types⟩
  case codes =>
    intro extension member
    exact code_ne_zero_of_admits (admitted extension member)
  case raw =>
    intro code data member
    exact unparsed_of_admits (admitted _ member)
  case token =>
    intro token
    subst token
    exact exists_pack_of_admits admitted
  case types =>
    intro type belongs
    have proper (extension) (member : extension ∈ account.list) :=
      proper_of_admits (admitted extension member)
    cases type with
    | uninitialized => cases kind <;> cases belongs
    | holding wanted =>
        rw [mem_types_iff belongs proper]
        constructor
        · intro got
          rcases got with ⟨value, got⟩
          exact ⟨wanted, value, rfl, got⟩
        · intro got
          rcases got with ⟨_, value, same, got⟩
          cases same
          exact ⟨value, got⟩

/-- Metadata with a name of a length, which takes 80 bytes more. -/
def namedMetadata (length : Nat) : TokenMetadata where
  updateAuthority := none
  mint := .zero .address
  name := String.ofList (List.replicate length 'n')
  symbol := ""
  uri := ""
  additionalMetadata := []

theorem size_namedMetadata (length : Nat) : Record.size (namedMetadata length) = 80 + length := by
  have nameSize : (String.ofList (List.replicate length 'n')).utf8ByteSize = length := by
    induction length with
    | zero => rfl
    | succ length ih =>
        rw [List.replicate_succ', String.ofList_append, String.utf8ByteSize_append, ih]
        rfl
  change 32 + (32 + (4 + (String.ofList (List.replicate length 'n')).utf8ByteSize + 12)) = _
  omega

/-- A new mint that is given metadata, and then a name of a length. -/
def renamedMint (length : Nat) : Account .mint :=
  let bare : Account .mint := ⟨⟨none, 1000, 9, true, none⟩, none⟩
  (bare.edit (.add .tokenMetadata (namedMetadata 0))).edit
    (.updateMetadata .name (namedMetadata length).name)

theorem reachable_renamedMint (length : Nat) : Reachable (renamedMint length) := by
  unfold renamedMint
  apply Reachable.edited
  apply Reachable.edited
  exact .bare _

theorem list_renamedMint (length : Nat) :
    (renamedMint length).list = [.typed .tokenMetadata (namedMetadata length)] := by
  rfl

/-- With a name that is one byte too long, the mint is refused and still shows the type of its
metadata. -/
theorem Reachable.encodable_renamedMint :
    Reachable (renamedMint 65456) ∧
    (renamedMint 65456).pack = .error (.extensionTooLarge 65536) ∧
    .holding .tokenMetadata ∈ (renamedMint 65456).types := by
  have reachable := reachable_renamedMint 65456
  rcases Reachable.encodable reachable with ⟨-, -, refused, -, shown⟩
  have size : Record.size (namedMetadata 65456) = 65536 := size_namedMetadata 65456
  refine ⟨reachable, (refused _).mpr ?_, (shown _ rfl).mpr ?_⟩
  · refine ⟨[], _, [], list_renamedMint _, ?_, ?_, ?_⟩
    · intro other member
      cases member
    · rw [size]
      decide
    · rw [size]
  · exact ⟨.tokenMetadata, namedMetadata 65456, rfl, rfl⟩

end Account

end TokenAccounts
