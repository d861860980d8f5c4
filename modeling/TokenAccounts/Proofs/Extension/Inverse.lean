import TokenAccounts.Proofs.Extension.Value

/-!
# Reading and writing values undo each other

For every code, data is read as an extension just if it is what is written of that extension.  In
the other direction, what is written of an extension is read back, up to optional addresses and
keys that are present as zeros, unless a count in metadata is too large or raw data is under the
code of a kind.
-/

namespace TokenAccounts

theorem ExtensionType.ofCode?_eq_none_iff {code : UInt16} :
    ofCode? code = none ↔ code ≠ 0 ∧ ExtensionKind.ofCode? code = none := by
  unfold ofCode?
  split
  · next reserved => simp [reserved]
  · next unreserved => simp [unreserved]

/-- Whether the texts and the table of metadata are short enough for four-byte counts. -/
structure TokenMetadata.Counted (metadata : TokenMetadata) : Prop where
  name_lt : metadata.name.utf8ByteSize < UInt32.size
  symbol_lt : metadata.symbol.utf8ByteSize < UInt32.size
  uri_lt : metadata.uri.utf8ByteSize < UInt32.size
  rows_lt : metadata.additionalMetadata.length < UInt32.size
  row_lt : ∀ row ∈ metadata.additionalMetadata,
    row.1.utf8ByteSize < UInt32.size ∧ row.2.utf8ByteSize < UInt32.size

theorem TokenMetadata.Counted.fits {metadata : TokenMetadata} (counted : metadata.Counted) :
    Record.Fits metadata :=
  ⟨trivial, trivial, counted.name_lt, counted.symbol_lt, counted.uri_lt,
    ⟨counted.rows_lt, counted.row_lt⟩, trivial⟩

namespace Extension

/-- The extensions that can be read back from what is written of them. -/
inductive Restorable : Extension → Prop where
  | metadata (metadata : TokenMetadata) (counted : metadata.Counted) :
      Restorable (.typed .tokenMetadata metadata)
  | typed {kind : ExtensionKind} (other : kind ≠ .tokenMetadata) (value : kind.Value) :
      Restorable (.typed kind value)
  /-- Raw data of unused space. -/
  | reserved (data : List UInt8) : Restorable (.unparsed 0 data)
  | unknown {code : UInt16} (unknown : ExtensionType.ofCode? code = none) (data : List UInt8) :
      Restorable (.unparsed code data)

/-- Only metadata has counts. -/
theorem fits_typed_of_ne {kind : ExtensionKind} (other : kind ≠ .tokenMetadata)
    (value : kind.Value) : Fits (.typed kind value) := by
  have writable := obstacle?_typed_of_ne other value
  exact fits_of_size_le ((obstacle?_eq_none_iff _).mp writable).2.2

theorem Restorable.proper {extension : Extension} (restorable : extension.Restorable) :
    extension.Proper := by
  cases restorable with
  | metadata metadata counted => trivial
  | typed other value => trivial
  | reserved data => rfl
  | unknown unknown data => exact (ExtensionType.ofCode?_eq_none_iff.mp unknown).2

theorem Restorable.fits {extension : Extension} (restorable : extension.Restorable) :
    extension.Fits := by
  cases restorable with
  | metadata metadata counted => exact counted.fits
  | typed other value => exact fits_typed_of_ne other value
  | reserved data => trivial
  | unknown unknown data => trivial

/-- Reading and writing values undo each other.  Whatever is read under a code has that code, and
takes just the bytes that were read, so that different data never holds the same extension.  And
what is written of an extension is read as the extension again, but that an optional address or key
which is present as zeros becomes absent. -/
theorem unpack_inverts_write :
    (∀ code data extension, unpack code data = .ok extension →
      extension.code = code ∧ extension.write = data ∧ extension.size = data.length) ∧
    (∀ code data other extension, unpack code data = .ok extension →
      unpack code other = .ok extension → data = other) ∧
    (∀ extension : Extension, extension.Restorable →
      unpack extension.code extension.write = .ok extension.normalize) ∧
    (∀ extension : Extension, extension.normalize = extension ↔ extension.Settled) := by
  refine ⟨?read, ?injective, ?written, normalize_eq_self_iff⟩
  case read =>
    intro code data extension unpacked
    rcases unpack_eq_ok_iff.mp unpacked with ⟨sameCode, written, -, -, -⟩
    refine ⟨sameCode, written, ?_⟩
    rw [← extension.length_write, written]
  case injective =>
    intro code data other extension unpacked otherUnpacked
    calc
      data = extension.write := (unpack_eq_ok_iff.mp unpacked).2.1.symm
      _ = other := (unpack_eq_ok_iff.mp otherUnpacked).2.1
  case written =>
    intro extension restorable
    exact unpack_write_of_fits restorable.proper restorable.fits

/-- Metadata with a key that occurs twice, and with an authority of zeros. -/
def orphanedMetadata : TokenMetadata where
  updateAuthority := some (.zero .address)
  mint := .zero .address
  name := "Token"
  symbol := "T"
  uri := ""
  additionalMetadata := [("tier", "gold"), ("tier", "")]

/-- That metadata is read back without its authority. -/
theorem unpack_write_orphanedMetadata :
    let restored : TokenMetadata := { orphanedMetadata with updateAuthority := none }
    unpack 19 (Record.write orphanedMetadata) = .ok (.typed .tokenMetadata restored) ∧
      Record.write restored = Record.write orphanedMetadata ∧
      Record.size restored = (Record.write orphanedMetadata).length := by
  intro restored
  have counted : orphanedMetadata.Counted :=
    ⟨by decide, by decide, by decide, by decide, by decide⟩
  have normal : normalize (.typed .tokenMetadata orphanedMetadata) =
      .typed .tokenMetadata restored := by
    decide +kernel
  have unpacked := unpack_inverts_write.2.2.1 _ (.metadata orphanedMetadata counted)
  rw [normal] at unpacked
  exact ⟨unpacked, (unpack_inverts_write.1 _ _ _ unpacked).2⟩

end Extension

end TokenAccounts
