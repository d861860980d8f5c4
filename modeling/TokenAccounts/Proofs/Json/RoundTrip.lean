import TokenAccounts.Proofs.Extension.First
import TokenAccounts.Proofs.Json.Records
import TokenAccounts.Proofs.Json.Standard

/-!
# JSON texts read back

With a lawful library every value without a factor on shown amounts is read from its JSON text as
itself: records by their fields, extensions by the name of their kind, accounts by their base record
and their list, which is told from a missing list.  A factor that is no number or infinite is
written as null, and then the text is refused.
-/

namespace TokenAccounts

namespace JsonLibrary

variable {α : Type} [JsonForm α]

/-- Whether a value is read from its text as itself. -/
def IsRestored (library : JsonLibrary) (value : α) : Prop :=
  library.ofText? (library.toText value) = some value

/-- Whether nothing is read from the text of a value. -/
def IsRefused (library : JsonLibrary) (value : α) : Prop :=
  (library.ofText? (library.toText value) : Option α) = none

variable {library : JsonLibrary} {value : α}

/-- What is read from the text of a value is what is read from its form. -/
theorem Lawful.ofText?_toText (lawful : library.Lawful)
    (written : library.Written maxDepth (JsonForm.toForm library value)) :
    (library.ofText? (library.toText value) : Option α) =
      JsonForm.ofForm? library (JsonForm.toForm library value) := by
  rw [ofText?, toText, lawful.read?_write _ written, Option.bind_some]

theorem Lawful.isRestored (lawful : library.Lawful)
    (written : library.Written maxDepth (JsonForm.toForm library value))
    (read : JsonForm.ofForm? library (JsonForm.toForm library value) = some value) :
    library.IsRestored value :=
  (lawful.ofText?_toText written).trans read

theorem Lawful.isRefused (lawful : library.Lawful)
    (written : library.Written maxDepth (JsonForm.toForm library value))
    (unread : (JsonForm.ofForm? library (JsonForm.toForm library value) : Option α) = none) :
    library.IsRefused value :=
  (lawful.ofText?_toText written).trans unread

end JsonLibrary

variable {library : JsonLibrary}

/-! ## Records -/

theorem Record.isRestored {α : Type} [Record α] (lawful : library.Lawful) (exact : IsExact α)
    (record : α) : library.IsRestored record :=
  lawful.isRestored (written_toForm _ record) (ofForm?_toForm lawful exact record)

theorem AccountKind.isExact_base (kind : AccountKind) : Record.IsExact kind.Base := by
  cases kind <;> exact ⟨by decide, by decide⟩

/-- Factors on shown amounts are the only doubles that extensions hold. -/
theorem ExtensionKind.isExact_value {kind : ExtensionKind} (other : kind ≠ .scaledUiAmount) :
    Record.IsExact kind.Value := by
  cases kind with
  | scaledUiAmount => contradiction
  | _ => exact ⟨by decide, by decide⟩

namespace Multisig

variable (multisig : Multisig)

theorem written_toForm (depth : Nat) :
    library.Written (depth + 3) (JsonForm.toForm library multisig) := by
  apply JsonLibrary.Written.fields
  simp only [List.forall_mem_cons]
  exact ⟨JsonLibrary.written_ofByte _ _, JsonLibrary.written_ofByte _ _, .bool _,
    JsonLibrary.written_ofItems .address _, by simp⟩

theorem ofForm?_toForm (lawful : library.Lawful) :
    JsonForm.ofForm? library (JsonForm.toForm library multisig) = some multisig := by
  have found : library.toFields? ["m", "n", "isInitialized", "signers"]
      (JsonForm.toForm library multisig) = _ :=
    lawful.toFields?_ofFields _ _ (by decide) rfl
  have m := lawful.toByte?_ofByte multisig.m
  have n := lawful.toByte?_ofByte multisig.n
  have isInitialized := lawful.toBool?_ofBool multisig.isInitialized
  have signers := lawful.toItems?_ofItems fun signer (_ : signer ∈ multisig.signers) =>
    lawful.toAddress?_ofAddress signer
  simp only [JsonForm.ofForm?, found, List.map_cons, List.map_nil, bind, Option.bind_some, m, n,
    isInitialized, signers]

end Multisig

namespace MetadataField

theorem written_toForm (depth : Nat) (field : MetadataField) :
    library.Written (depth + 1) (JsonForm.toForm library field) := by
  cases field with
  | name | symbol | uri => exact .name _
  | key key => exact .variant "key" (.text key)

theorem ofForm?_toForm (lawful : library.Lawful) (field : MetadataField) :
    JsonForm.ofForm? library (JsonForm.toForm library field) = some field := by
  cases field with
  | name | symbol | uri =>
      have name := lawful.toName?_ofName
      simp only [JsonForm.toForm, JsonForm.ofForm?, name]
  | key key =>
      have variant := lawful.toVariant?_ofVariant "key" (some (library.ofText key))
      have text := lawful.toText?_ofText key
      have unnamed : library.toName? (library.ofVariant "key" (some (library.ofText key))) =
          (library.toUnit? (library.ofText key)).map fun _ => "key" := by
        rw [JsonLibrary.toName?, variant]
        rfl
      simp only [JsonForm.toForm, JsonForm.ofForm?, unnamed, variant, bind, Option.bind_some, text,
        Option.map_some]
      cases library.toUnit? (library.ofText key) <;> rfl

end MetadataField

namespace Extension

theorem jsonName_ne_unparsedName (kind : ExtensionKind) : kind.jsonName ≠ unparsedName := by
  cases kind <;> decide

/-- The names of kinds are told apart. -/
theorem find?_jsonName (kind : ExtensionKind) :
    (ExtensionKind.all.find? fun other => other.jsonName == kind.jsonName) = some kind := by
  cases kind <;> decide

theorem written_toForm (depth : Nat) (extension : Extension) :
    library.Written (depth + 5) (extension.toForm library) := by
  cases extension with
  | typed kind value => exact .variant kind.jsonName (Record.written_toForm depth value)
  | unparsed code data =>
      refine .variant unparsedName (.fields ?_)
      simp only [List.forall_mem_cons]
      exact ⟨Scalar.written_toForm (depth + 2) .u16 code,
        JsonLibrary.written_ofItems (JsonLibrary.written_ofByte (depth + 2)) data, by simp⟩

/-- The name of a kind tells how its value is read. -/
theorem ofForm?_typed (lawful : library.Lawful) (kind : ExtensionKind) (form : library.Form) :
    ofForm? library (library.ofVariant kind.jsonName (some form)) =
      (Record.ofForm? library form).map (typed kind) := by
  rw [ofForm?, lawful.toVariant?_ofVariant]
  simp only [bind, Option.bind_some, if_neg (jsonName_ne_unparsedName kind), find?_jsonName]
  cases (Record.ofForm? library form : Option kind.Value) <;> rfl

theorem ofForm?_toForm (lawful : library.Lawful) (extension : Extension)
    (other : ∀ config, extension ≠ .typed .scaledUiAmount config) :
    ofForm? library (extension.toForm library) = some extension := by
  cases extension with
  | typed kind value =>
      have exact : Record.IsExact kind.Value := by
        apply ExtensionKind.isExact_value
        rintro rfl
        exact other value rfl
      rw [toForm, ofForm?_typed lawful, Record.ofForm?_toForm lawful exact, Option.map_some]
  | unparsed code data =>
      have fields : library.toFields? ["extensionType", "data"] (library.ofFields [
          ("extensionType", Scalar.u16.toForm library code),
          ("data", library.ofItems library.ofByte data)]) = _ :=
        lawful.toFields?_ofFields _ _ (by decide) rfl
      have codeBack := Scalar.ofForm?_toForm lawful (show Scalar.u16 ≠ .float64 by decide) code
      have dataBack := lawful.toItems?_ofItems fun byte (_ : byte ∈ data) =>
        lawful.toByte?_ofByte byte
      rw [toForm, ofForm?, lawful.toVariant?_ofVariant]
      simp only [bind, Option.bind_some, if_true, fields, List.map_cons, List.map_nil, codeBack,
        dataBack]

end Extension

namespace Account

variable {kind : AccountKind}

/-- The form of the extensions of an account. -/
def extensionsForm (library : JsonLibrary) (account : Account kind) : library.Form :=
  library.ofOption (library.ofItems (Extension.toForm library)) account.extensions

/-- The extensions that a form stands for. -/
def ofExtensionsForm? (library : JsonLibrary) (form : library.Form) :
    Option (Option (List Extension)) :=
  library.toOption? (library.toItems? (Extension.ofForm? library)) form

theorem written_toForm (depth : Nat) (account : Account kind) :
    library.Written (depth + 7) (JsonForm.toForm library account) := by
  apply JsonLibrary.Written.fields
  simp only [List.forall_mem_cons]
  exact ⟨Record.written_toForm (depth + 2) account.base,
    JsonLibrary.written_ofOption (JsonLibrary.written_ofItems (Extension.written_toForm depth))
      account.extensions, by simp⟩

/-- The base record of an account is read back whatever its extensions are. -/
theorem ofForm?_toForm_eq (lawful : library.Lawful) (account : Account kind) :
    JsonForm.ofForm? library (JsonForm.toForm library account) =
      (ofExtensionsForm? library (account.extensionsForm library)).map
        fun extensions => (⟨account.base, extensions⟩ : Account kind) := by
  have fields : library.toFields? ["base", "extensions"] (JsonForm.toForm library account) =
      some [Record.toForm library account.base, account.extensionsForm library] :=
    lawful.toFields?_ofFields _ _ (by decide) rfl
  have base := Record.ofForm?_toForm lawful kind.isExact_base account.base
  simp only [JsonForm.ofForm?, fields, bind, Option.bind_some, base, ofExtensionsForm?]
  cases library.toOption? (library.toItems? (Extension.ofForm? library))
    (account.extensionsForm library) <;> rfl

theorem ofForm?_toForm (lawful : library.Lawful) (account : Account kind)
    (absent : Extension.Absent .scaledUiAmount account.list) :
    JsonForm.ofForm? library (JsonForm.toForm library account) = some account := by
  have extensions : ofExtensionsForm? library (account.extensionsForm library) =
      some account.extensions := by
    refine lawful.toOption?_ofOption (lawful.toItems?_null _) fun extensions present =>
      lawful.toItems?_ofItems ?_
    intro extension listed
    apply Extension.ofForm?_toForm lawful
    rintro config rfl
    refine absent config ?_
    rwa [list, Option.mem_def.mp present]
  rw [ofForm?_toForm_eq lawful, extensions, Option.map_some]

/-- If one of its extensions is not read back, neither is an account. -/
theorem ofForm?_toForm_eq_none (lawful : library.Lawful) {account : Account kind}
    {extension : Extension} (listed : extension ∈ account.list)
    (unread : Extension.ofForm? library (extension.toForm library) = none) :
    (JsonForm.ofForm? library (JsonForm.toForm library account) : Option (Account kind)) =
      none := by
  have extensions : ofExtensionsForm? library (account.extensionsForm library) = none := by
    cases held : account.extensions with
    | none => simp [list, held] at listed
    | some extensions =>
        have member : extension ∈ extensions := by simpa [list, held] using listed
        rw [extensionsForm, held]
        exact lawful.toOption?_eq_none (lawful.ofItems_ne_null _ _)
          (lawful.toItems?_ofItems_eq_none member unread)
  rw [ofForm?_toForm_eq lawful, extensions, Option.map_none]

end Account

/-! ## Factors without a numeral -/

namespace ScaledUiAmountConfig

/-- Whether a factor has no numeral, since it is no number or infinite. -/
def Unwritable (config : ScaledUiAmountConfig) : Prop :=
  ∃ factor ∈ [config.multiplier, config.newMultiplier],
    factor.isNaN = true ∨ factor.isInfinite = true

variable {config : ScaledUiAmountConfig}

/-- If one of the factors is not read, neither is the record. -/
theorem ofForms?_of_unread {authority multiplier timestamp newMultiplier : library.Form}
    (unread : library.toDouble? multiplier = none ∨ library.toDouble? newMultiplier = none) :
    Layout.ofForms? (FieldType.ofForm? library) (Record.layout ScaledUiAmountConfig)
      [authority, multiplier, timestamp, newMultiplier] = none := by
  rcases unread with unread | unread <;>
    simp [Record.layout, Layout.ofForms?, FieldType.ofForm?, Format.ofForm?, Scalar.ofForm?, unread]

/-- A factor without a numeral is written as null, which is not read as one. -/
theorem ofForm?_of_unwritable (lawful : library.Lawful) (unwritable : config.Unwritable) :
    (Record.ofForm? library (Record.toForm library config) : Option ScaledUiAmountConfig) =
      none := by
  have unread : library.toDouble? (library.ofDouble config.multiplier) = none ∨
      library.toDouble? (library.ofDouble config.newMultiplier) = none := by
    obtain ⟨factor, listed, unwritable⟩ := unwritable
    have null : library.toDouble? (library.ofDouble factor) = none := by
      rw [lawful.ofDouble_eq_null factor unwritable, lawful.toDouble?_null]
    rcases List.mem_pair.mp listed with rfl | rfl
    · exact .inl null
    · exact .inr null
  have values : Layout.ofForm? library (FieldType.ofForm? library)
      (Record.layout ScaledUiAmountConfig) (Record.toForm library config) = none :=
    (Layout.ofForm?_eq lawful (by decide) (Record.toValues config)).trans
      (ofForms?_of_unread unread)
  exact congrArg (Option.map Record.ofValues) values

end ScaledUiAmountConfig

/-! ## Texts -/

/-- With any lawful library, mints, token accounts, multisignature accounts, names of texts, and
extensions and extended accounts without factors on shown amounts are read from their JSON texts as
they are.  With a factor that is no number or infinite, the text of an extension or of an account is
refused. -/
theorem json_texts_read_back (library : JsonLibrary) (lawful : library.Lawful) :
    (∀ mint : Mint, library.IsRestored mint) ∧
    (∀ account : TokenAccount, library.IsRestored account) ∧
    (∀ multisig : Multisig, library.IsRestored multisig) ∧
    (∀ field : MetadataField, library.IsRestored field) ∧
    (∀ extension : Extension, (∀ config, extension ≠ .typed .scaledUiAmount config) →
      library.IsRestored extension) ∧
    (∀ (kind : AccountKind) (account : Account kind),
      Extension.Absent .scaledUiAmount account.list → library.IsRestored account) ∧
    (∀ config : ScaledUiAmountConfig, config.Unwritable →
      library.IsRefused (Extension.typed .scaledUiAmount config) ∧
      ∀ (kind : AccountKind) (account : Account kind),
        .typed .scaledUiAmount config ∈ account.list → library.IsRefused account) := by
  refine ⟨?_, ?_, ?_, ?_, ?_, ?_, ?_⟩
  · exact Record.isRestored lawful (AccountKind.isExact_base .mint)
  · exact Record.isRestored lawful (AccountKind.isExact_base .token)
  · intro multisig
    exact lawful.isRestored (multisig.written_toForm _) (multisig.ofForm?_toForm lawful)
  · intro field
    exact lawful.isRestored (field.written_toForm _) (field.ofForm?_toForm lawful)
  · intro extension other
    exact lawful.isRestored (extension.written_toForm _) (extension.ofForm?_toForm lawful other)
  · intro kind account absent
    exact lawful.isRestored (account.written_toForm _) (account.ofForm?_toForm lawful absent)
  · intro config unwritable
    have unread : Extension.ofForm? library
        ((Extension.typed .scaledUiAmount config).toForm library) = none := by
      rw [Extension.toForm, Extension.ofForm?_typed lawful]
      exact congrArg _ (config.ofForm?_of_unwritable lawful unwritable)
    constructor
    · exact lawful.isRefused (Extension.written_toForm _ _) unread
    · intro kind account listed
      exact lawful.isRefused (account.written_toForm _)
        (Account.ofForm?_toForm_eq_none lawful listed unread)

/-- A mint whose extensions have quotes, backslashes, control characters, ciphertexts and raw bytes
in them, and one that is only a mark. -/
def quotedMint : Account .mint where
  base := ⟨none, 18446744073709551615, 9, true, some (.zero .address)⟩
  extensions := some [
    .typed .tokenMetadata {
      updateAuthority := none
      mint := .zero .address
      name := "\"quoted\\"
      symbol := "\x01\n"
      uri := "ü"
      additionalMetadata := [("", "\t"), ("", "/")] },
    .typed .nonTransferable ⟨⟩,
    .typed .confidentialMintBurn ⟨.zero _, .zero _, .zero _, .zero _⟩,
    .unparsed 777 [0, 255]]

/-- A factor that is no number, and is to be followed by an infinite one. -/
def brokenFactors : ScaledUiAmountConfig := ⟨none, ⟨0x7ff8000000000000⟩, -1, ⟨0xfff0000000000000⟩⟩

/-- With the standard library the mint is read back, with its list and with an empty one; with the
broken factors at the end of the list it is refused.  The texts of the raw entry, of the mark and of
a key with a control character are what they should be. -/
theorem read_back_quotedMint :
    JsonLibrary.standard.IsRestored quotedMint ∧
    JsonLibrary.standard.IsRestored { quotedMint with extensions := some [] } ∧
    JsonLibrary.standard.IsRestored (Extension.unparsed 777 [0, 255]) ∧
    JsonLibrary.standard.IsRefused
      (quotedMint.push (.typed .scaledUiAmount brokenFactors)) ∧
    JsonLibrary.standard.toText (Extension.unparsed 777 [0, 255]) =
      "\x7b\"unparsed\":\x7b\"extensionType\":777,\"data\":[0,255]\x7d\x7d" ∧
    JsonLibrary.standard.toText (Extension.typed .nonTransferable ⟨⟩) =
      "\x7b\"nonTransferable\":null\x7d" ∧
    JsonLibrary.standard.toText (MetadataField.key "\"\x01") =
      "\x7b\"key\":\"\\\"\\u0001\"\x7d" := by
  obtain ⟨-, -, -, -, extensions, accounts, broken⟩ :=
    json_texts_read_back JsonLibrary.standard JsonLibrary.lawful_standard
  have absent : Extension.Absent .scaledUiAmount quotedMint.list := by
    apply Extension.forall_value?_eq_none_iff.mp
    decide
  have unwritable : brokenFactors.Unwritable := ⟨_, List.mem_cons_self, .inl (by decide)⟩
  refine ⟨accounts .mint quotedMint absent, accounts .mint _ ?_, extensions _ ?_,
    (broken brokenFactors unwritable).2 .mint _ ?_, by decide +kernel, by decide +kernel,
    by decide +kernel⟩
  · intro config listed
    cases listed
  · intro config same
    cases same
  · exact List.mem_append_right _ List.mem_cons_self

end TokenAccounts
