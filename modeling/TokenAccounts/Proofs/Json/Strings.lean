import TokenAccounts.Json.Reading

/-!
# Strings read back

Main statements: pieces that are written are read back, if no control character without a letter
stands among them unescaped, and the pieces that spell a text do so.
-/

namespace TokenAccounts

namespace Json

variable {character letter : Char} {unit : UInt16} {piece : Piece} {pieces : List Piece}

/-! ## Escapes -/

/-- A control character has a place in one unit. -/
theorem toNat_unit_of_control (control : character.toNat < 0x20) :
    (UInt16.ofNat character.toNat).toNat = character.toNat :=
  UInt16.toNat_ofNat_of_lt' (Nat.lt_trans control (by decide))

theorem hexDigit?_digitChar {value : Nat} (small : value < 16) :
    hexDigit? (Nat.digitChar value) = some value := by
  decide +revert

/-- Four hexadecimal digits denote the unit that they were written for. -/
theorem readPieces?_hexUnit (unit : UInt16) (text : List Char) :
    readPieces? ('\\' :: 'u' :: (hexUnit unit.toNat ++ text)) =
      (readPieces? text).map fun (pieces, rest) => (.escaped unit :: pieces, rest) := by
  have small := unit.toNat_lt
  have back : ((unit.toNat / 4096 % 16 * 16 + unit.toNat / 256 % 16) * 16 +
      unit.toNat / 16 % 16) * 16 + unit.toNat % 16 = unit.toNat := by omega
  have read : readUnit? (Nat.digitChar (unit.toNat / 4096 % 16))
      (Nat.digitChar (unit.toNat / 256 % 16)) (Nat.digitChar (unit.toNat / 16 % 16))
      (Nat.digitChar (unit.toNat % 16)) = some unit := by
    rw [readUnit?, hexDigit?_digitChar (by omega), hexDigit?_digitChar (by omega),
      hexDigit?_digitChar (by omega), hexDigit?_digitChar (by omega)]
    simp only [bind, Option.bind_some, back, UInt16.ofNat_toNat]
  simp only [hexUnit, List.map_cons, List.map_nil, List.cons_append, List.nil_append, readPieces?,
    read, bind, Option.bind_some]
  cases readPieces? text <;> rfl

/-- The letter of a character stands for it, and is not that of a code unit. -/
theorem unescape?_of_lookup (found : escapeLetters.lookup character = some letter) :
    letter ≠ 'u' ∧ unescape? letter = some character := by
  have every : ∀ escape ∈ escapeLetters, escape.2 ≠ 'u' ∧ unescape? escape.2 = some escape.1 := by
    decide
  obtain ⟨before, after, listed, -⟩ := List.lookup_eq_some_iff.mp found
  exact every (character, letter) (listed ▸ List.mem_append_cons_self)

theorem readPieces?_letter (found : escapeLetters.lookup character = some letter)
    (text : List Char) :
    readPieces? ('\\' :: letter :: text) =
      (readPieces? text).map fun (pieces, rest) => (.plain character :: pieces, rest) := by
  obtain ⟨ne, read⟩ := unescape?_of_lookup found
  rw [readPieces?, read]
  · cases readPieces? text <;> rfl
  · intro _ _ _ _ _ unit
    exact absurd unit ne

/-- A character that is not escaped stands for itself. -/
theorem readPieces?_plain (unescaped : escapeLetters.lookup character = none)
    (printable : ¬ character.toNat < 0x20) (text : List Char) :
    readPieces? (character :: text) =
      (readPieces? text).map fun (pieces, rest) => (.plain character :: pieces, rest) := by
  have distinct := List.lookup_eq_none_iff.mp unescaped
  have quote : character ≠ '"' := by simpa using distinct ('"', '"') (by decide)
  have backslash : character ≠ '\\' := by simpa using distinct ('\\', '\\') (by decide)
  rw [readPieces?, if_neg (not_or_intro backslash printable)]
  · cases readPieces? text <;> rfl
  · exact quote
  · exact fun _ _ _ _ _ escape _ => backslash escape
  · exact fun _ _ escape _ => backslash escape

/-! ## Pieces -/

/-- Whether a piece may stand in a string: a control character without a letter must be escaped. -/
def Piece.Legible : Piece → Prop
  | .plain character => escapeLetters.lookup character = none → ¬ character.toNat < 0x20
  | .escaped _ => True

theorem legible_pieceOf (character : Char) : (pieceOf character).Legible := by
  rw [pieceOf]
  split
  case isTrue => trivial
  case isFalse plain => exact fun unlettered control => plain ⟨unlettered, control⟩

theorem legible_of_mem_piecesOf {text : String} (listed : piece ∈ piecesOf text) :
    piece.Legible := by
  obtain ⟨character, -, rfl⟩ := List.mem_map.mp listed
  exact legible_pieceOf character

/-- A piece that is written is read back. -/
theorem readPieces?_renderPiece (legible : piece.Legible) (text : List Char) :
    readPieces? (renderPiece piece ++ text) =
      (readPieces? text).map fun (pieces, rest) => (piece :: pieces, rest) := by
  cases piece with
  | escaped unit => exact readPieces?_hexUnit unit text
  | plain character =>
      cases found : escapeLetters.lookup character with
      | some letter =>
          simp only [renderPiece, found]
          exact readPieces?_letter found text
      | none =>
          simp only [renderPiece, found]
          exact readPieces?_plain found (legible found) text

/-- Behind its opening quote, a string that is written is read back. -/
theorem readPieces?_flatMap (legible : ∀ piece ∈ pieces, piece.Legible) (rest : List Char) :
    readPieces? (pieces.flatMap renderPiece ++ '"' :: rest) = some (pieces, rest) := by
  induction pieces with
  | nil => rfl
  | cons piece pieces ih =>
      rw [List.forall_mem_cons] at legible
      rw [List.flatMap_cons, List.append_assoc, readPieces?_renderPiece legible.1, ih legible.2]
      rfl

theorem renderString_append (pieces : List Piece) (rest : List Char) :
    renderString pieces ++ rest = '"' :: (pieces.flatMap renderPiece ++ '"' :: rest) := by
  simp [renderString]

/-! ## Texts -/

/-- An escaped unit that is no half of a pair is a character of its own. -/
theorem characters?_escaped (high : isHighSurrogate unit = false)
    (low : isLowSurrogate unit = false) (pieces : List Piece) :
    characters? (.escaped unit :: pieces) =
      (characters? pieces).map (Char.ofNat unit.toNat :: ·) := by
  cases pieces with
  | nil => simp [characters?, high, low]
  | cons piece pieces => cases piece <;> simp [characters?, high, low]

/-- A control character is no half of a pair. -/
theorem notSurrogate_of_control (control : unit.toNat < 0x20) :
    isHighSurrogate unit = false ∧ isLowSurrogate unit = false := by
  simp [isHighSurrogate, isLowSurrogate, UInt16.le_iff_toNat_le, UInt16.lt_iff_toNat_lt]
  omega

theorem characters?_pieceOf (character : Char) (pieces : List Piece) :
    characters? (pieceOf character :: pieces) = (characters? pieces).map (character :: ·) := by
  rw [pieceOf]
  split
  case isFalse => rfl
  case isTrue escaped =>
    have unit := toNat_unit_of_control escaped.2
    obtain ⟨high, low⟩ := notSurrogate_of_control (unit.symm ▸ escaped.2)
    rw [characters?_escaped high low, unit, Char.ofNat_toNat]

/-- The pieces that spell a text do so. -/
theorem textOf?_piecesOf (text : String) : textOf? (piecesOf text) = some text := by
  have spelled (characters : List Char) :
      characters? (characters.map pieceOf) = some characters := by
    induction characters with
    | nil => rfl
    | cons character characters ih =>
        rw [List.map_cons, characters?_pieceOf, ih, Option.map_some]
  rw [textOf?, piecesOf, spelled, Option.map_some, String.ofList_toList]

end Json

end TokenAccounts
