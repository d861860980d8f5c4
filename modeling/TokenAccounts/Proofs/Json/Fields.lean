import TokenAccounts.Json.Form

/-!
# Fields read back

What a lawful library makes of fields.  Main statements: the form of a field is one that is written,
and a field without doubles is read back from its form.  An absent value is told from a present one
because no value is read from null.
-/

namespace TokenAccounts

namespace JsonLibrary

variable {α β γ : Type}

/-! ## Lists -/

/-- If each of a list is read in turn as some image of it, so is the list. -/
theorem mapM_map_eq_some {read : β → Option γ} {write : α → β} {image : α → γ} {values : List α}
    (reads : ∀ value ∈ values, read (write value) = some (image value)) :
    (values.map write).mapM read = some (values.map image) := by
  induction values with
  | nil => rfl
  | cons value values ih =>
      rw [List.forall_mem_cons] at reads
      rw [List.map_cons, List.mapM_cons, reads.1, ih reads.2]
      rfl

/-- If one of a list is not read, neither is the list. -/
theorem mapM_map_eq_none {read : β → Option γ} {write : α → β} {values : List α} {value : α}
    (listed : value ∈ values) (unread : read (write value) = none) :
    (values.map write).mapM read = none := by
  induction values with
  | nil => contradiction
  | cons first rest ih =>
      rw [List.map_cons, List.mapM_cons]
      rcases List.mem_cons.mp listed with rfl | later
      · rw [unread]
        rfl
      · rw [ih later]
        cases read (write first) <;> rfl

/-! ## Forms that are written -/

section Written

variable {library : JsonLibrary}

theorem written_ofOption {depth : Nat} {toForm : α → library.Form}
    (each : ∀ value, library.Written depth (toForm value)) (value : Option α) :
    library.Written depth (library.ofOption toForm value) := by
  cases value with
  | none => exact .null
  | some value => exact each value

theorem written_ofItems {depth : Nat} {toForm : α → library.Form}
    (each : ∀ value, library.Written depth (toForm value)) (values : List α) :
    library.Written (depth + 1) (library.ofItems toForm values) := by
  refine .list fun form listed => ?_
  obtain ⟨value, -, rfl⟩ := List.mem_map.mp listed
  exact each value

theorem isWord_of_natCast_le {number : Nat} (small : number ≤ 0xffffffffffffffff) :
    IsWord (number : Int) := by
  unfold IsWord
  omega

theorem isWord_of_signed {number : Int} (low : -0x8000000000000000 ≤ number)
    (high : number < 0x8000000000000000) : IsWord number := by
  unfold IsWord
  omega

theorem written_ofByte (depth : Nat) (byte : UInt8) :
    library.Written depth (library.ofByte byte) :=
  .integer (isWord_of_natCast_le (Nat.le_trans (Nat.le_of_lt byte.toNat_lt) (by decide)))

theorem written_ofBlob (depth : Nat) {kind : BlobKind} (blob : Blob kind) :
    library.Written (depth + 1) (library.ofBlob blob) := by
  cases kind with
  | address => exact .address blob
  | raw width => exact written_ofItems (written_ofByte depth) blob.bytes
  | elGamalPubkey | elGamalCiphertext | aeCiphertext => exact .text _

theorem written_ofPair (depth : Nat) (pair : String × String) :
    library.Written (depth + 1) (library.ofPair pair) :=
  written_ofItems (fun text => .text text) [pair.1, pair.2]

end Written

/-! ## Parts read back -/

namespace Lawful

variable {library : JsonLibrary} (lawful : library.Lawful)

include lawful

theorem toItems?_ofItems {ofForm? : library.Form → Option α} {toForm : α → library.Form}
    {values : List α} (reads : ∀ value ∈ values, ofForm? (toForm value) = some value) :
    library.toItems? ofForm? (library.ofItems toForm values) = some values := by
  have every : (values.map toForm).mapM ofForm? = some (values.map id) := mapM_map_eq_some reads
  rw [ofItems, toItems?, lawful.toList?_ofList]
  exact every.trans (congrArg some (List.map_id values))

theorem toItems?_ofItems_eq_none {ofForm? : library.Form → Option α} {toForm : α → library.Form}
    {values : List α} {value : α} (listed : value ∈ values)
    (unread : ofForm? (toForm value) = none) :
    library.toItems? ofForm? (library.ofItems toForm values) = none := by
  rw [ofItems, toItems?, lawful.toList?_ofList]
  exact mapM_map_eq_none listed unread

theorem toItems?_null (ofForm? : library.Form → Option α) :
    library.toItems? ofForm? library.null = none := by
  rw [toItems?, lawful.toList?_null]
  rfl

theorem ofItems_ne_null (toForm : α → library.Form) (values : List α) :
    library.ofItems toForm values ≠ library.null := by
  intro null
  have items := lawful.toList?_ofList (values.map toForm)
  rw [show library.ofList (values.map toForm) = library.null from null,
    lawful.toList?_null] at items
  contradiction

/-- A reader that refuses null tells a value from an absent one. -/
theorem toOption?_ofOption {ofForm? : library.Form → Option α} {toForm : α → library.Form}
    {value : Option α} (refuses : ofForm? library.null = none)
    (reads : ∀ present ∈ value, ofForm? (toForm present) = some present) :
    library.toOption? ofForm? (library.ofOption toForm value) = some value := by
  cases value with
  | none => rw [ofOption, toOption?, lawful.present?_null]
  | some value =>
      have same := reads value rfl
      have present : toForm value ≠ library.null := by
        intro null
        rw [null, refuses] at same
        contradiction
      simp only [ofOption, toOption?, lawful.present?_of_ne_null _ present, same, Option.map_some]

/-- What is not read in place of a value is not read as an optional value either. -/
theorem toOption?_eq_none {ofForm? : library.Form → Option α} {form : library.Form}
    (present : form ≠ library.null) (unread : ofForm? form = none) :
    library.toOption? ofForm? form = none := by
  simp only [toOption?, lawful.present?_of_ne_null form present, unread, Option.map_none]

theorem toName?_ofName (name : String) : library.toName? (library.ofName name) = some name := by
  rw [ofName, toName?, lawful.toVariant?_ofVariant]
  rfl

theorem toByte?_ofByte (byte : UInt8) : library.toByte? (library.ofByte byte) = some byte := by
  have small := byte.toNat_lt
  have word : IsWord (byte.toNat : Int) := isWord_of_natCast_le (by omega)
  rw [ofByte, toByte?, lawful.toInteger?_ofInteger _ _ _ word (by omega) (by omega),
    Option.map_some, Int.toNat_natCast, UInt8.ofNat_toNat]

theorem toSpelled?_ofText {kind : BlobKind} (blob : Blob kind) :
    library.toSpelled? kind (library.ofText (library.spellBytes blob.bytes)) = some blob := by
  simp only [toSpelled?, lawful.toText?_ofText, lawful.unspellBytes?_spellBytes, bind,
    Option.bind_some, Blob.ofBytes?_bytes]

theorem toSpelled?_null (kind : BlobKind) : library.toSpelled? kind library.null = none := by
  rw [toSpelled?, lawful.toText?_null]
  rfl

theorem toBlob?_ofBlob {kind : BlobKind} (blob : Blob kind) :
    library.toBlob? kind (library.ofBlob blob) = some blob := by
  cases kind with
  | address => exact lawful.toAddress?_ofAddress blob
  | raw width =>
      have numbers := lawful.toItems?_ofItems fun byte (_ : byte ∈ blob.bytes) =>
        lawful.toByte?_ofByte byte
      rw [ofBlob, toBlob?, numbers, Option.bind_some, Blob.ofBytes?_bytes]
  | elGamalPubkey | elGamalCiphertext | aeCiphertext => exact lawful.toSpelled?_ofText blob

theorem toBlob?_null (kind : BlobKind) : library.toBlob? kind library.null = none := by
  cases kind with
  | address => exact lawful.toAddress?_null
  | raw width => rw [toBlob?, lawful.toItems?_null, Option.bind_none]
  | elGamalPubkey | elGamalCiphertext | aeCiphertext => exact lawful.toSpelled?_null _

theorem toPair?_ofPair (pair : String × String) :
    library.toPair? (library.ofPair pair) = some pair := by
  have texts := lawful.toItems?_ofItems fun text (_ : text ∈ [pair.1, pair.2]) =>
    lawful.toText?_ofText text
  rw [ofPair, toPair?, texts]
  rfl

end Lawful

end JsonLibrary

open JsonLibrary (isWord_of_natCast_le isWord_of_signed written_ofOption written_ofItems
  written_ofBlob written_ofPair)

variable {library : JsonLibrary}

/-! ## Fields -/

namespace Scalar

theorem written_toForm (depth : Nat) (scalar : Scalar) (value : scalar.Value) :
    library.Written (depth + 1) (scalar.toForm library value) := by
  cases scalar with
  | u8 => exact JsonLibrary.written_ofByte _ value
  | u16 | u32 | u64 =>
      have small := value.toNat_lt
      exact .integer (isWord_of_natCast_le (by omega))
  | i16 | i64 =>
      have low := value.le_toInt
      have high := value.toInt_lt
      exact .integer (isWord_of_signed (by omega) (by omega))
  | float64 => exact .double value
  | blob kind => exact written_ofBlob depth value

/-- Null is no scalar, so that it can stand for an absent value. -/
theorem ofForm?_null (lawful : library.Lawful) (scalar : Scalar) :
    scalar.ofForm? library library.null = none := by
  cases scalar with
  | u8 => rw [ofForm?, JsonLibrary.toByte?, lawful.toInteger?_null, Option.map_none]
  | u16 | u32 | u64 | i16 | i64 => rw [ofForm?, lawful.toInteger?_null, Option.map_none]
  | float64 => exact lawful.toDouble?_null
  | blob kind => exact lawful.toBlob?_null kind

/-- A scalar that is no double is read back. -/
theorem ofForm?_toForm (lawful : library.Lawful) {scalar : Scalar} (exact : scalar ≠ .float64)
    (value : scalar.Value) : scalar.ofForm? library (scalar.toForm library value) = some value := by
  cases scalar with
  | u8 => exact lawful.toByte?_ofByte value
  | u16 | u32 | u64 =>
      have small := value.toNat_lt
      have word : JsonLibrary.IsWord value.toNat := isWord_of_natCast_le (by omega)
      rw [toForm, ofForm?, lawful.toInteger?_ofInteger _ _ _ word (by omega) (by omega),
        Option.map_some, Int.toNat_natCast]
      simp
  | i16 | i64 =>
      have low := value.le_toInt
      have high := value.toInt_lt
      have word : JsonLibrary.IsWord value.toInt := isWord_of_signed (by omega) (by omega)
      rw [toForm, ofForm?, lawful.toInteger?_ofInteger _ _ _ word (by omega) (by omega),
        Option.map_some]
      simp
  | float64 => contradiction
  | blob kind => exact lawful.toBlob?_ofBlob value

end Scalar

namespace Format

/-- Whether no double is in a format. -/
def isExact : Format → Bool
  | .scalar item => item ≠ .float64
  | .tagged item => item ≠ .float64
  | .slotted item => item ≠ .float64
  | .flag => true
  | .accountState => true
  | .nonzero _ => true
  | .text => true
  | .pairs => true

theorem written_toForm (depth : Nat) (format : Format) (value : format.Value) :
    library.Written (depth + 2) (format.toForm library value) := by
  cases format with
  | scalar item => exact item.written_toForm (depth + 1) value
  | flag => exact .bool value
  | accountState => exact .name _
  | nonzero kind => exact written_ofOption (written_ofBlob (depth + 1)) value
  | tagged item | slotted item => exact written_ofOption (item.written_toForm (depth + 1)) value
  | text => exact .text value
  | pairs => exact written_ofItems (written_ofPair depth) value

/-- A field without doubles is read back. -/
theorem ofForm?_toForm (lawful : library.Lawful) {format : Format} (exact : format.isExact)
    (value : format.Value) : format.ofForm? library (format.toForm library value) = some value := by
  cases format with
  | scalar item => exact Scalar.ofForm?_toForm lawful (of_decide_eq_true exact) value
  | flag => exact lawful.toBool?_ofBool value
  | accountState =>
      rw [toForm, ofForm?, lawful.toName?_ofName]
      exact AccountState.ofName?_name value
  | nonzero kind =>
      exact lawful.toOption?_ofOption (lawful.toBlob?_null kind) fun blob _ =>
        lawful.toBlob?_ofBlob blob
  | tagged item | slotted item =>
      exact lawful.toOption?_ofOption (item.ofForm?_null lawful) fun present _ =>
        Scalar.ofForm?_toForm lawful (of_decide_eq_true exact) present
  | text => exact lawful.toText?_ofText value
  | pairs => exact lawful.toItems?_ofItems fun pair _ => lawful.toPair?_ofPair pair

end Format

end TokenAccounts
