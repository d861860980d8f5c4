import TokenAccounts.Proofs.Extension.Inverse

/-!
# Parsing metadata

Metadata has no fixed length: its texts and its table have counts in front.  What is written of it
can nevertheless be told from what follows it.  Main statement: data has one prefix at most that is
what is written of metadata, and this prefix decides whether the data is read, is too long, or is
refused for a text or a count that cannot be right.  A large count alone makes nobody wait, because
each round of reading the table consumes bytes or is the last.
-/

namespace TokenAccounts

namespace Format

/-- Bytes with their number in front. -/
def counted (bytes : List UInt8) : List UInt8 := littleEndian 4 bytes.length ++ bytes

theorem eq_of_littleEndian_count {left right : Nat} (leftSmall : left < countLimit)
    (rightSmall : right < countLimit) (same : littleEndian 4 left = littleEndian 4 right) :
    left = right := by
  have numbers := congrArg ofLittleEndian same
  rwa [ofLittleEndian_littleEndian, ofLittleEndian_littleEndian,
    Nat.mod_eq_of_lt (show left < limit 4 from leftSmall),
    Nat.mod_eq_of_lt (show right < limit 4 from rightSmall)] at numbers

/-- Counted bytes can be told from what follows them. -/
theorem counted_append_inj {left right leftRest rightRest : List UInt8}
    (leftSmall : left.length < UInt32.size) (rightSmall : right.length < UInt32.size)
    (same : counted left ++ leftRest = counted right ++ rightRest) :
    left = right ∧ leftRest = rightRest := by
  rw [counted, counted, List.append_assoc, List.append_assoc] at same
  obtain ⟨counts, rests⟩ := List.append_inj same (by simp)
  exact List.append_inj rests (eq_of_littleEndian_count leftSmall rightSmall counts)

theorem run_readText_counted {bytes : List UInt8} {text : String}
    (small : bytes.length < countLimit) (decoded : ofUtf8Bytes? bytes = some text)
    (rest : List UInt8) : readText.run (counted bytes ++ rest) = (.ok text, rest) := by
  obtain rfl := utf8Bytes_of_ofUtf8Bytes? decoded
  have written : counted (utf8Bytes text) = writeText text := rfl
  rw [written]
  exact run_readText_append small rest

/-! ## The rounds of reading a table -/

/-- A row takes the eight bytes of its two counts at least. -/
theorem eight_le_of_run_readPair {unread rest : List UInt8} {row : String × String}
    (read : readPair.run unread = (.ok row, rest)) : rest.length + 8 ≤ unread.length := by
  obtain ⟨rfl, -⟩ := eq_of_run_readPair read
  simp only [writePair, List.length_append, length_writeText, textSize]
  omega

theorem eight_mul_le_rowsSize (rows : List (String × String)) :
    8 * rows.length ≤ rowsSize rows := by
  induction rows with
  | nil => exact Nat.le_refl _
  | cons row rows ih =>
      simp only [List.length_cons, rowsSize, textSize]
      omega

end Format

namespace TokenMetadata

variable {metadata found : TokenMetadata} {data unread rest : List UInt8}
variable {length other : Nat}

/-! ## What is written of metadata -/

/-- Whether bytes are what is written of metadata that is read back as it is. -/
structure Encodes (metadata : TokenMetadata) (bytes : List UInt8) : Prop where
  written : Record.write metadata = bytes
  counted : metadata.Counted
  authority_ne : metadata.updateAuthority ≠ some (.zero .address)

theorem fits_iff : Record.Fits metadata ↔ metadata.Counted := by
  constructor
  · intro fits
    obtain ⟨-, -, name, symbol, uri, ⟨rows, row⟩, -⟩ := fits
    exact ⟨name, symbol, uri, rows, row⟩
  · exact Counted.fits

theorem settled_iff :
    Record.Settled metadata ↔ metadata.updateAuthority ≠ some (.zero .address) := by
  constructor
  · intro settled
    exact settled.1
  · intro authority_ne
    exact ⟨authority_ne, trivial, trivial, trivial, trivial, trivial, trivial⟩

theorem run_read_eq_ok_iff :
    (Record.read : Reader TokenMetadata).run unread = (.ok metadata, rest) ↔
      ∃ bytes, unread = bytes ++ rest ∧ metadata.Encodes bytes := by
  rw [Record.run_read_eq_ok_iff_of_slotless ExtensionKind.tokenMetadata.hasSlot_eq_false, fits_iff,
    settled_iff]
  constructor
  · intro conditions
    obtain ⟨same, counted, authority_ne⟩ := conditions
    exact ⟨_, same, rfl, counted, authority_ne⟩
  · intro conditions
    obtain ⟨bytes, same, rfl, counted, authority_ne⟩ := conditions
    exact ⟨same, counted, authority_ne⟩

theorem run_read_of_encodes_take (encodes : metadata.Encodes (data.take length)) :
    (Record.read : Reader TokenMetadata).run data = (.ok metadata, data.drop length) :=
  run_read_eq_ok_iff.mpr ⟨_, (List.take_append_drop length data).symm, encodes⟩

/-- Data has one prefix at most that is what is written of metadata. -/
theorem encodes_take_unique (inside : length ≤ data.length) (otherInside : other ≤ data.length)
    (encodes : metadata.Encodes (data.take length))
    (otherEncodes : found.Encodes (data.take other)) : length = other ∧ metadata = found := by
  have read := run_read_of_encodes_take encodes
  rw [run_read_of_encodes_take otherEncodes, Prod.mk.injEq, Except.ok.injEq] at read
  obtain ⟨rfl, dropped⟩ := read
  have lengths := congrArg List.length dropped
  rw [List.length_drop, List.length_drop] at lengths
  exact ⟨by omega, rfl⟩

theorem failsOnly_read : Reader.FailsOnly Error.OfText (Record.read : Reader TokenMetadata) := by
  have unchecked : (Record.layout TokenMetadata).all (fun field => field.type.isUnchecked) = true :=
    rfl
  apply Record.failsOnly_of_fields
  intro field member
  exact FieldType.failsOnly_ofText (List.all_eq_true.mp unchecked field member)

/-! ## What data is read as -/

theorem unpack_eq_ok_iff :
    ExtensionKind.tokenMetadata.unpack data = .ok metadata ↔ metadata.Encodes data := by
  refine (ExtensionKind.unpack_eq_ok_iff .tokenMetadata).trans ?_
  rw [fits_iff, settled_iff]
  constructor
  · intro conditions
    obtain ⟨written, counted, authority_ne⟩ := conditions
    exact ⟨written, counted, authority_ne⟩
  · intro encodes
    exact ⟨encodes.written, encodes.counted, encodes.authority_ne⟩

/-- What stands behind the metadata is reported with where it begins. -/
theorem unpack_of_encodes_take (short : length < data.length)
    (encodes : metadata.Encodes (data.take length)) :
    ExtensionKind.tokenMetadata.unpack data =
      .error (.invalidExtensionLength .tokenMetadata length data.length) := by
  have read := run_read_of_encodes_take encodes
  have behind : data.drop length ≠ [] := by
    rw [ne_eq, List.drop_eq_nil_iff]
    exact Nat.not_le_of_lt short
  obtain ⟨first, others, left⟩ := List.exists_cons_of_ne_nil behind
  have consumed : data.length - (first :: others).length = length := by
    rw [← left, List.length_drop]
    omega
  rw [left] at read
  simp only [ExtensionKind.unpack, ExtensionKind.checkLength, ExtensionKind.fixedLength?,
    Outcome.ok_bind, read, consumed]

/-- Data with no such prefix is refused for its bytes. -/
theorem encodes_take_or_refused (data : List UInt8) :
    (∃ length ≤ data.length, ∃ metadata : TokenMetadata, metadata.Encodes (data.take length)) ∨
      ∃ error : Error, error.OfText ∧ ExtensionKind.tokenMetadata.unpack data = .error error := by
  cases read : (Record.read : Reader TokenMetadata).run data with
  | mk outcome rest =>
      cases outcome with
      | ok metadata =>
          obtain ⟨bytes, rfl, encodes⟩ := run_read_eq_ok_iff.mp read
          refine .inl ⟨bytes.length, ?_, metadata, ?_⟩
          · rw [List.length_append]
            exact Nat.le_add_right ..
          · rwa [List.take_left]
      | error error =>
          refine .inr ⟨error, failsOnly_read _ _ _ read, ?_⟩
          simp only [ExtensionKind.unpack, ExtensionKind.checkLength, ExtensionKind.fixedLength?,
            Outcome.ok_bind, read]

theorem unpack_eq_invalidExtensionLength_iff {kind : ExtensionKind} {expected found : Nat} :
    ExtensionKind.tokenMetadata.unpack data = .error (.invalidExtensionLength kind expected found) ↔
      kind = .tokenMetadata ∧ found = data.length ∧ expected < data.length ∧
        ∃ metadata : TokenMetadata, metadata.Encodes (data.take expected) := by
  constructor
  · intro refused
    obtain ⟨length, inside, metadata, encodes⟩ | ⟨error, ofText, sameRefusal⟩ :=
      encodes_take_or_refused data
    · rcases Nat.lt_or_eq_of_le inside with short | rfl
      · rw [unpack_of_encodes_take short encodes] at refused
        cases refused
        exact ⟨rfl, rfl, short, metadata, encodes⟩
      · rw [List.take_length] at encodes
        rw [unpack_eq_ok_iff.mpr encodes] at refused
        cases refused
    · rw [sameRefusal] at refused
      cases refused
      exact False.elim ofText
  · intro conditions
    obtain ⟨rfl, rfl, short, metadata, encodes⟩ := conditions
    exact unpack_of_encodes_take short encodes

/-! ## Declared rows -/

/-- Data laid out like metadata, up to the number of rows that it declares.  The texts need not be
texts, and the bytes behind the number need not be rows. -/
structure Payload where
  authority : Address
  mint : Address
  name : List UInt8
  symbol : List UInt8
  uri : List UInt8
  count : UInt32
  rows : List UInt8
  name_lt : name.length < Format.countLimit
  symbol_lt : symbol.length < Format.countLimit
  uri_lt : uri.length < Format.countLimit

namespace Payload

open Format (counted)

variable {left right payload : Payload}

def bytes (payload : Payload) : List UInt8 :=
  payload.authority.bytes ++ (payload.mint.bytes ++ (counted payload.name ++
    (counted payload.symbol ++ (counted payload.uri ++
      (littleEndian 4 payload.count.toNat ++ payload.rows)))))

/-- The declared number of rows, and what follows it, can be told from the bytes. -/
theorem count_and_rows_eq (same : left.bytes = right.bytes) :
    left.count = right.count ∧ left.rows = right.rows := by
  obtain ⟨-, mints⟩ := List.append_inj same (by simp)
  obtain ⟨-, names⟩ := List.append_inj mints (by simp)
  obtain ⟨-, symbols⟩ := Format.counted_append_inj left.name_lt right.name_lt names
  obtain ⟨-, uris⟩ := Format.counted_append_inj left.symbol_lt right.symbol_lt symbols
  obtain ⟨-, tables⟩ := Format.counted_append_inj left.uri_lt right.uri_lt uris
  obtain ⟨counts, rows⟩ := List.append_inj tables (by simp)
  exact ⟨UInt32.toNat_inj.mp (Format.eq_of_littleEndian_count left.count.toNat_lt
    right.count.toNat_lt counts), rows⟩

/-- What is written of metadata, with other bytes behind it. -/
def ofMetadata (metadata : TokenMetadata) (counted : metadata.Counted) (rest : List UInt8) :
    Payload where
  authority := metadata.updateAuthority.getD (.zero .address)
  mint := metadata.mint
  name := utf8Bytes metadata.name
  symbol := utf8Bytes metadata.symbol
  uri := utf8Bytes metadata.uri
  count := UInt32.ofNat metadata.additionalMetadata.length
  rows := metadata.additionalMetadata.flatMap Format.writePair ++ rest
  name_lt := counted.name_lt
  symbol_lt := counted.symbol_lt
  uri_lt := counted.uri_lt

theorem bytes_ofMetadata (metadata : TokenMetadata) (counted : metadata.Counted)
    (rest : List UInt8) :
    (ofMetadata metadata counted rest).bytes = Record.write metadata ++ rest := by
  have count : (UInt32.ofNat metadata.additionalMetadata.length).toNat =
      metadata.additionalMetadata.length := Format.toNat_ofNat_of_lt_countLimit counted.rows_lt
  simp only [bytes, ofMetadata, count, Record.write, Record.layout, Record.toValues, Layout.write,
    FieldType.write, Format.write, Scalar.write, Format.writeText, Format.counted,
    length_utf8Bytes, List.append_assoc, List.append_nil]

/-- Data that declares more rows than there can be holds no metadata. -/
theorem not_encodes_take (short : payload.rows.length < 8 * payload.count.toNat) (length : Nat)
    (metadata : TokenMetadata) : ¬ metadata.Encodes (payload.bytes.take length) := by
  intro encodes
  have same : payload.bytes =
      (ofMetadata metadata encodes.counted (payload.bytes.drop length)).bytes := by
    rw [bytes_ofMetadata, encodes.written, List.take_append_drop]
  obtain ⟨counts, rows⟩ := count_and_rows_eq same
  have taken := Format.eight_mul_le_rowsSize metadata.additionalMetadata
  rw [counts, rows, ofMetadata, Format.toNat_ofNat_of_lt_countLimit encodes.counted.rows_lt,
    List.length_append, Format.length_flatMap_writePair] at short
  omega

/-- Once the texts are read, the outcome is that of the rounds for the rows. -/
theorem run_read {name symbol uri : String} (nameDecoded : ofUtf8Bytes? payload.name = some name)
    (symbolDecoded : ofUtf8Bytes? payload.symbol = some symbol)
    (uriDecoded : ofUtf8Bytes? payload.uri = some uri) :
    (Record.read : Reader TokenMetadata).run payload.bytes =
      let (outcome, rest) := (Format.readPair.timesCounting payload.count.toNat payload.rows).2
      let authority := if payload.authority.isZero then none else some payload.authority
      (outcome.map fun rows => ⟨authority, payload.mint, name, symbol, uri, rows⟩, rest) := by
  have address (address : Address) (rest : List UInt8) :=
    Scalar.run_read_append .address address rest
  have nameRead := Format.run_readText_counted payload.name_lt nameDecoded
  have symbolRead := Format.run_readText_counted payload.symbol_lt symbolDecoded
  have uriRead := Format.run_readText_counted payload.uri_lt uriDecoded
  have countRead := Scalar.run_read_append .u32 payload.count payload.rows
  simp only [Scalar.write] at address countRead
  simp only [bytes, Record.read, Record.layout, Record.ofValues, Layout.read, FieldType.read,
    Format.read, Reader.run_bind, Reader.run_pure, address, nameRead, symbolRead, uriRead,
    countRead, Reader.timesCounting_snd]
  obtain ⟨outcome, rest⟩ := (Format.readPair.times payload.count.toNat).run payload.rows
  cases outcome <;> rfl

theorem rounds_le (payload : Payload) :
    (Format.readPair.timesCounting payload.count.toNat payload.rows).1 ≤
      payload.rows.length / 8 + 1 :=
  Reader.timesCounting_fst_le (by decide) (fun _ _ _ => Format.eight_le_of_run_readPair) _ _

end Payload

/-- Whether data is refused because it is too short or not UTF-8. -/
def Unreadable (data : List UInt8) : Prop :=
  (∃ needed remaining,
    ExtensionKind.tokenMetadata.unpack data = .error (.bufferTooShort needed remaining)) ∨
  ExtensionKind.tokenMetadata.unpack data = .error .invalidUtf8

theorem unreadable_of_not_encodes
    (none : ∀ length ≤ data.length, ∀ metadata : TokenMetadata,
      ¬ metadata.Encodes (data.take length)) : Unreadable data := by
  obtain ⟨length, inside, metadata, encodes⟩ | ⟨error, ofText, refused⟩ :=
    encodes_take_or_refused data
  · exact absurd encodes (none length inside metadata)
  · cases error with
    | bufferTooShort needed remaining => exact .inl ⟨needed, remaining, refused⟩
    | invalidUtf8 => exact .inr refused
    | _ => exact False.elim ofText

/-- Data has one prefix at most that is what is written of metadata which is read back as it is.  It
is read as metadata if this prefix is all of it; otherwise the length of the prefix is reported, and
if there is none, the data is too short or not UTF-8.  So it is when more rows are declared than
eight bytes for each allow, and reading them takes one round more than the bytes allow at most. -/
theorem metadata_is_self_delimiting :
    (∀ (data : List UInt8) (length other : Nat) (metadata found : TokenMetadata),
      length ≤ data.length → other ≤ data.length → metadata.Encodes (data.take length) →
        found.Encodes (data.take other) → length = other ∧ metadata = found) ∧
    (∀ (data : List UInt8) (metadata : TokenMetadata),
      ExtensionKind.tokenMetadata.unpack data = .ok metadata ↔ metadata.Encodes data) ∧
    (∀ (data : List UInt8) (kind : ExtensionKind) (expected found : Nat),
      ExtensionKind.tokenMetadata.unpack data =
          .error (.invalidExtensionLength kind expected found) ↔
        kind = .tokenMetadata ∧ found = data.length ∧ expected < data.length ∧
          ∃ metadata : TokenMetadata, metadata.Encodes (data.take expected)) ∧
    (∀ data : List UInt8,
      (∀ length ≤ data.length, ∀ metadata : TokenMetadata,
        ¬ metadata.Encodes (data.take length)) → Unreadable data) ∧
    (∀ payload : Payload, payload.rows.length < 8 * payload.count.toNat →
      Unreadable payload.bytes) ∧
    (∀ (payload : Payload) (name symbol uri : String), ofUtf8Bytes? payload.name = some name →
      ofUtf8Bytes? payload.symbol = some symbol → ofUtf8Bytes? payload.uri = some uri →
        (Record.read : Reader TokenMetadata).run payload.bytes =
          let (outcome, rest) := (Format.readPair.timesCounting payload.count.toNat payload.rows).2
          let authority := if payload.authority.isZero then none else some payload.authority
          (outcome.map fun rows => ⟨authority, payload.mint, name, symbol, uri, rows⟩, rest)) ∧
    (∀ payload : Payload, (Format.readPair.timesCounting payload.count.toNat payload.rows).1 ≤
      payload.rows.length / 8 + 1) := by
  refine ⟨?unique, ?accepted, ?trailing, ?refused, ?overdeclared, ?loop, Payload.rounds_le⟩
  case unique =>
    intro data length other metadata found inside otherInside encodes otherEncodes
    exact encodes_take_unique inside otherInside encodes otherEncodes
  case accepted =>
    intro data metadata
    exact unpack_eq_ok_iff
  case trailing =>
    intro data kind expected found
    exact unpack_eq_invalidExtensionLength_iff
  case refused =>
    intro data none
    exact unreadable_of_not_encodes none
  case overdeclared =>
    intro payload short
    apply unreadable_of_not_encodes
    intro length inside metadata
    exact Payload.not_encodes_take short length metadata
  case loop =>
    intro payload name symbol uri nameDecoded symbolDecoded uriDecoded
    exact Payload.run_read nameDecoded symbolDecoded uriDecoded

/-- Metadata with nothing but a name. -/
def bareName : TokenMetadata := ⟨none, .zero .address, "T", "", "", []⟩

/-- Data that declares as many rows as can be declared, with bytes for one. -/
def overdeclared : Payload where
  authority := .zero .address
  mint := .zero .address
  name := [84]
  symbol := []
  uri := []
  count := 0xffffffff
  rows := List.replicate 8 0
  name_lt := by decide
  symbol_lt := by decide
  uri_lt := by decide

/-- A byte behind metadata is reported with where it stands, and the rows that are declared but not
there are not waited for. -/
theorem metadata_is_self_delimiting_overdeclared :
    ExtensionKind.tokenMetadata.unpack (Record.write bareName ++ [7]) =
        .error (.invalidExtensionLength .tokenMetadata 81 82) ∧
      overdeclared.rows.length < 8 * overdeclared.count.toNat ∧
      Unreadable overdeclared.bytes ∧
      (Format.readPair.timesCounting overdeclared.count.toNat overdeclared.rows).1 ≤ 2 := by
  obtain ⟨-, -, trailing, -, refused, -, rounds⟩ := metadata_is_self_delimiting
  have encodes : bareName.Encodes ((Record.write bareName ++ [7]).take 81) :=
    ⟨by decide +kernel, ⟨by decide, by decide, by decide, by decide, by decide⟩, by decide⟩
  refine ⟨(trailing _ _ _ _).mpr ⟨rfl, ?_, ?_, bareName, encodes⟩, by decide,
    refused overdeclared (by decide), rounds overdeclared⟩
  · decide +kernel
  · decide +kernel

end TokenMetadata

end TokenAccounts
