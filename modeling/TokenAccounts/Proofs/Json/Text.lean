import TokenAccounts.Proofs.Json.Numerals
import TokenAccounts.Proofs.Json.Strings

/-!
# Values read back

Main statement: the compact text of a value is read as that value, if all its numbers and strings
are ones that the grammar admits.  The reader is followed step by step; each step is told from the
others by the first character, and has enough fuel because it reads what is shorter.
-/

namespace TokenAccounts

namespace Json

variable {json : Json} {items : List Json} {members : List (List Piece × Json)}
variable {numeral : Numeral}

/-! ## The values that are read back -/

/-- Whether every number and every string of a value is one that the grammar admits. -/
inductive Legible : Json → Prop
  | null : Legible .null
  | bool (value : Bool) : Legible (.bool value)
  | number {numeral : Numeral} (wellFormed : numeral.WellFormed) : Legible (.number numeral)
  | string {pieces : List Piece} (legible : ∀ piece ∈ pieces, piece.Legible) :
      Legible (.string pieces)
  | array {items : List Json} (each : ∀ item ∈ items, Legible item) : Legible (.array items)
  | object {members : List (List Piece × Json)}
      (names : ∀ member ∈ members, ∀ piece ∈ member.1, piece.Legible)
      (each : ∀ member ∈ members, Legible member.2) : Legible (.object members)

theorem renderItems_cons_cons (item next : Json) (others : List Json) :
    renderItems (item :: next :: others) =
      item.render ++ ',' :: renderItems (next :: others) := rfl

theorem renderMembers_cons_cons (member next : List Piece × Json)
    (others : List (List Piece × Json)) :
    renderMembers (member :: next :: others) =
      renderString member.1 ++ ':' :: (member.2.render ++
        ',' :: renderMembers (next :: others)) := by
  simp [renderMembers]

theorem renderMembers_singleton (member : List Piece × Json) :
    renderMembers [member] = renderString member.1 ++ ':' :: (member.2.render ++ ['}']) := by
  simp [renderMembers]

/-! ## What a value starts with -/

/-- Whether a text starts with a character that is not blank and closes nothing. -/
inductive Opens : List Char → Prop
  | intro {first : Char} (visible : isBlank first = false) (bracket : first ≠ ']')
      (brace : first ≠ '}') (text : List Char) : Opens (first :: text)

variable {first : Char} {text rest : List Char} {fuel : Nat}

theorem Opens.append (opens : Opens text) (rest : List Char) : Opens (text ++ rest) := by
  cases opens with
  | intro visible bracket brace text => exact .intro visible bracket brace (text ++ rest)

theorem Opens.skipBlanks_eq (opens : Opens text) : skipBlanks text = text := by
  cases opens with
  | intro visible => simp [skipBlanks, visible]

/-- A number starts with its sign or with a digit. -/
theorem exists_renderNumeral_eq (wellFormed : numeral.WellFormed) :
    ∃ first text, renderNumeral numeral = first :: text ∧
      (first = '-' ∨ first.isDigit = true) := by
  obtain ⟨negative, whole, fraction, exponent⟩ := numeral
  rw [renderNumeral_eq]
  cases negative with
  | true => exact ⟨_, _, rfl, .inl rfl⟩
  | false =>
      have isWhole : IsWhole whole := wellFormed.isWhole
      cases whole with
      | nil => exact absurd rfl isWhole.ne_nil
      | cons digit digits => exact ⟨_, _, rfl, .inr (isWhole.allDigits digit List.mem_cons_self)⟩

/-- Nothing that is neither sign nor digit starts a number. -/
theorem ne_of_starts {other : Char} (starts : first = '-' ∨ first.isDigit = true)
    (notSign : other ≠ '-') (notDigit : other.isDigit = false) : first ≠ other := by
  rintro rfl
  cases starts with
  | inl sign => exact notSign sign
  | inr digit => simp [digit] at notDigit

theorem opens_of_starts (starts : first = '-' ∨ first.isDigit = true) (text : List Char) :
    Opens (first :: text) := by
  refine .intro ?_ (ne_of_starts starts (by decide) (by decide))
    (ne_of_starts starts (by decide) (by decide)) text
  simp [isBlank, ne_of_starts starts]

theorem opens_render (legible : Legible json) : Opens json.render := by
  cases legible with
  | null => exact .intro (by decide) (by decide) (by decide) _
  | bool value => cases value <;> exact .intro (by decide) (by decide) (by decide) _
  | number wellFormed =>
      obtain ⟨first, text, rendered, starts⟩ := exists_renderNumeral_eq wellFormed
      rw [render, rendered]
      exact opens_of_starts starts text
  | string | array | object => exact .intro (by decide) (by decide) (by decide) _

theorem opens_renderItems {item : Json} (legible : Legible item) (items : List Json) :
    Opens (renderItems (item :: items)) := by
  cases items <;> exact (opens_render legible).append _

theorem opens_renderMembers (member : List Piece × Json) (members : List (List Piece × Json)) :
    Opens (renderMembers (member :: members)) := by
  cases members <;> exact .intro (by decide) (by decide) (by decide) _

/-! ## One step of reading -/

theorem readValue?_number (starts : first = '-' ∨ first.isDigit = true)
    (read : readNumeral? (first :: text) = some (numeral, rest)) :
    readValue? (fuel + 1) (first :: text) = some (.number numeral, rest) := by
  rw [readValue?, read]
  · rfl
  all_goals
    rintro more ⟨⟩
    exact ne_of_starts starts (by decide) (by decide) rfl

theorem readValue?_array (opens : Opens text) (read : readItems? fuel text = some (items, rest)) :
    readValue? (fuel + 1) ('[' :: text) = some (.array items, rest) := by
  rw [readValue?, opens.skipBlanks_eq]
  split
  case h_1 => cases opens; contradiction
  case h_2 => rw [read]; rfl

theorem readValue?_object (opens : Opens text)
    (read : readMembers? fuel text = some (members, rest)) :
    readValue? (fuel + 1) ('{' :: text) = some (.object members, rest) := by
  rw [readValue?, opens.skipBlanks_eq]
  split
  case h_1 => cases opens; contradiction
  case h_2 => rw [read]; rfl

theorem readItems?_last {item : Json} (read : readValue? fuel text = some (item, ']' :: rest)) :
    readItems? (fuel + 1) text = some ([item], rest) := by
  rw [readItems?, read]
  rfl

theorem readItems?_more {item : Json} {more : List Char}
    (read : readValue? fuel text = some (item, ',' :: more)) (opens : Opens more)
    (others : readItems? fuel more = some (items, rest)) :
    readItems? (fuel + 1) text = some (item :: items, rest) := by
  have comma : skipBlanks (',' :: more) = ',' :: more := rfl
  simp only [readItems?, read, bind, Option.bind_some, comma, opens.skipBlanks_eq, others]

theorem readMembers?_last {key : List Piece} {value : Json} {after : List Char}
    (name : readPieces? text = some (key, ':' :: after)) (opens : Opens after)
    (read : readValue? fuel after = some (value, '}' :: rest)) :
    readMembers? (fuel + 1) ('"' :: text) = some ([(key, value)], rest) := by
  have colon : skipBlanks (':' :: after) = ':' :: after := rfl
  have brace : skipBlanks ('}' :: rest) = '}' :: rest := rfl
  simp only [readMembers?, name, bind, Option.bind_some, colon, opens.skipBlanks_eq, read, brace]

theorem readMembers?_more {key : List Piece} {value : Json} {after more : List Char}
    (name : readPieces? text = some (key, ':' :: after)) (opens : Opens after)
    (read : readValue? fuel after = some (value, ',' :: more)) (moreOpens : Opens more)
    (others : readMembers? fuel more = some (members, rest)) :
    readMembers? (fuel + 1) ('"' :: text) = some ((key, value) :: members, rest) := by
  have colon : skipBlanks (':' :: after) = ':' :: after := rfl
  have comma : skipBlanks (',' :: more) = ',' :: more := rfl
  simp only [readMembers?, name, bind, Option.bind_some, colon, opens.skipBlanks_eq, read, comma,
    moreOpens.skipBlanks_eq, others]

/-! ## Reading back -/

/-- Whether the text of a value is read back as that value, wherever it stands. -/
def ReadsBack (json : Json) : Prop :=
  ∀ fuel rest, Behind rest → json.render.length ≤ fuel →
    readValue? fuel (json.render ++ rest) = some (json, rest)

theorem readItems?_renderItems (legible : ∀ item ∈ items, Legible item)
    (readsBack : ∀ item ∈ items, ReadsBack item) (nonempty : items ≠ []) (fuel : Nat)
    (rest : List Char) (enough : (renderItems items).length ≤ fuel) :
    readItems? fuel (renderItems items ++ rest) = some (items, rest) := by
  induction items generalizing fuel with
  | nil => contradiction
  | cons item others ih =>
      rw [List.forall_mem_cons] at legible readsBack
      cases others with
      | nil =>
          rw [renderItems, List.length_append, List.length_singleton] at enough
          rw [renderItems, List.append_assoc]
          obtain ⟨fuel, rfl⟩ := Nat.exists_eq_add_of_le' (show 1 ≤ fuel by omega)
          exact readItems?_last (readsBack.1 fuel _ (behind_cons (by decide) rest) (by omega))
      | cons next others =>
          rw [renderItems_cons_cons, List.length_append, List.length_cons] at enough
          rw [renderItems_cons_cons, List.append_assoc]
          obtain ⟨fuel, rfl⟩ := Nat.exists_eq_add_of_le' (show 1 ≤ fuel by omega)
          have opens := opens_renderItems (legible.2 next List.mem_cons_self) others
          exact readItems?_more (readsBack.1 fuel _ (behind_cons (by decide) _) (by omega))
            (opens.append rest) (ih legible.2 readsBack.2 (List.cons_ne_nil _ _) fuel (by omega))

theorem readMembers?_renderMembers
    (names : ∀ member ∈ members, ∀ piece ∈ member.1, piece.Legible)
    (legible : ∀ member ∈ members, Legible member.2)
    (readsBack : ∀ member ∈ members, ReadsBack member.2) (nonempty : members ≠ []) (fuel : Nat)
    (rest : List Char) (enough : (renderMembers members).length ≤ fuel) :
    readMembers? fuel (renderMembers members ++ rest) = some (members, rest) := by
  induction members generalizing fuel with
  | nil => contradiction
  | cons member others ih =>
      rw [List.forall_mem_cons] at names legible readsBack
      have opens := opens_render legible.1
      cases others with
      | nil =>
          rw [renderMembers_singleton, List.length_append, List.length_cons, List.length_append,
            List.length_singleton] at enough
          rw [renderMembers_singleton, List.append_assoc, List.cons_append, List.append_assoc,
            renderString_append]
          obtain ⟨fuel, rfl⟩ := Nat.exists_eq_add_of_le' (show 1 ≤ fuel by omega)
          exact readMembers?_last (readPieces?_flatMap names.1 _) (opens.append _)
            (readsBack.1 fuel _ (behind_cons (by decide) rest) (by omega))
      | cons next others =>
          rw [renderMembers_cons_cons, List.length_append, List.length_cons, List.length_append,
            List.length_cons] at enough
          rw [renderMembers_cons_cons, List.append_assoc, List.cons_append, List.append_assoc,
            renderString_append]
          obtain ⟨fuel, rfl⟩ := Nat.exists_eq_add_of_le' (show 1 ≤ fuel by omega)
          exact readMembers?_more (readPieces?_flatMap names.1 _) (opens.append _)
            (readsBack.1 fuel _ (behind_cons (by decide) _) (by omega))
            ((opens_renderMembers next others).append rest)
            (ih names.2 legible.2 readsBack.2 (List.cons_ne_nil _ _) fuel (by omega))

/-- The compact text of a legible value is read back wherever it stands. -/
theorem readsBack_of_legible (legible : Legible json) : ReadsBack json := by
  induction legible with
  | null =>
      rintro (_ | fuel) rest behind enough
      · contradiction
      · rfl
  | bool value =>
      rintro (_ | fuel) rest behind enough
      · cases value <;> contradiction
      · cases value <;> rfl
  | number wellFormed =>
      obtain ⟨first, text, rendered, starts⟩ := exists_renderNumeral_eq wellFormed
      rintro (_ | fuel) rest behind enough
      · rw [render, rendered] at enough
        contradiction
      · have read := readNumeral?_renderNumeral wellFormed behind
        rw [rendered] at read
        rw [render, rendered]
        exact readValue?_number starts read
  | string legible =>
      rintro (_ | fuel) rest behind enough
      · contradiction
      · rw [render, renderString_append, readValue?, readPieces?_flatMap legible]
        rfl
  | @array items each ih =>
      rintro (_ | fuel) rest behind enough
      · contradiction
      · cases items with
        | nil => rfl
        | cons item items =>
            have opens := opens_renderItems (each item List.mem_cons_self) items
            exact readValue?_array (opens.append rest) (readItems?_renderItems each ih
              (List.cons_ne_nil _ _) fuel rest (Nat.le_of_succ_le_succ enough))
  | @object members names each ih =>
      rintro (_ | fuel) rest behind enough
      · contradiction
      · cases members with
        | nil => rfl
        | cons member members =>
            have opens := opens_renderMembers member members
            exact readValue?_object (opens.append rest) (readMembers?_renderMembers names each ih
              (List.cons_ne_nil _ _) fuel rest (Nat.le_of_succ_le_succ enough))

/-- The compact text of a legible value is read back as that value. -/
theorem ofText?_toText (legible : Legible json) : ofText? json.toText = some json := by
  have read := readsBack_of_legible legible (2 * json.render.length + 1) [] behind_nil (by omega)
  rw [List.append_nil] at read
  rw [ofText?, toText, String.toList_ofList, (opens_render legible).skipBlanks_eq, read]
  rfl

end Json

end TokenAccounts
