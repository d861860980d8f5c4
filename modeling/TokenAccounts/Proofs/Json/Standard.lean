import TokenAccounts.Json.Standard
import TokenAccounts.Proofs.Bytes.Base64
import TokenAccounts.Proofs.Json.Fields
import TokenAccounts.Proofs.Json.Text

/-!
# The standard library is lawful

Main statement: the library that is used when the program runs keeps the laws of JSON libraries.
-/

namespace TokenAccounts

namespace Json

open JsonLibrary (mapM_map_eq_some)

variable {members : List (String × Json)}

/-! ## Legible values -/

theorem legible_ofInt (number : Int) : (ofInt number).Legible :=
  .number (wellFormed_wholeText _ _)

theorem legible_ofBinary64 (number : Binary64) : (ofBinary64 number).Legible := by
  obtain null | ⟨numeral, wellFormed, written⟩ := ofBinary64_cases number
  · rw [null]
    exact .null
  · rw [written]
    exact .number wellFormed

theorem legible_ofString (text : String) : (ofString text).Legible :=
  .string fun _ => legible_of_mem_piecesOf

theorem legible_ofAddress (address : Address) : (ofAddress address).Legible := by
  refine .array fun item listed => ?_
  obtain ⟨byte, -, rfl⟩ := List.mem_map.mp listed
  exact legible_ofInt _

theorem legible_ofMembers (each : ∀ member ∈ members, member.2.Legible) :
    (ofMembers members).Legible := by
  refine .object ?_ ?_ <;>
    intro written listed <;>
    obtain ⟨member, memberListed, rfl⟩ := List.mem_map.mp listed
  · exact fun _ => legible_of_mem_piecesOf
  · exact each member memberListed

/-- What is written with the standard library is legible. -/
theorem legible_of_written {depth : Nat} {form : JsonLibrary.standard.Form}
    (written : JsonLibrary.standard.Written depth form) : Legible form := by
  induction written with
  | null => exact .null
  | bool value => exact .bool value
  | integer => exact legible_ofInt _
  | double number => exact legible_ofBinary64 number
  | text text => exact legible_ofString text
  | address address => exact legible_ofAddress address
  | list each ih => exact .array ih
  | fields each ih => exact legible_ofMembers ih
  | name name => exact legible_ofString name
  | variant name written ih => exact legible_ofMembers (by simpa using ih)

/-! ## Plain values -/

theorem toString?_ofString (text : String) : (ofString text).toString? = some text :=
  textOf?_piecesOf text

theorem toByte?_ofByte (byte : UInt8) : (ofByte byte).toByte? = some byte := by
  have small := byte.toNat_lt
  rw [ofByte, toByte?, toIntWithin?_ofInt (by omega) (by omega), Option.map_some,
    Int.toNat_natCast, UInt8.ofNat_toNat]

theorem toAddress?_ofAddress (address : Address) :
    (ofAddress address).toAddress? = some address := by
  have bytes : (address.bytes.map ofByte).mapM toByte? = some (address.bytes.map id) :=
    mapM_map_eq_some fun byte _ => toByte?_ofByte byte
  rw [List.map_id] at bytes
  simp only [ofAddress, toAddress?, toItems?, bind, Option.bind_some, bytes, Blob.ofBytes?_bytes]

theorem ofBinary64_eq_null {number : Binary64}
    (special : number.isNaN = true ∨ number.isInfinite = true) : ofBinary64 number = .null := by
  rw [ofBinary64, if_pos (Bool.or_eq_true_iff.mpr special)]

theorem present?_of_ne_null {json : Json} (present : json ≠ .null) :
    json.present? = some json := by
  cases json with
  | null => contradiction
  | _ => rfl

/-! ## Names -/

theorem toMembers?_ofMembers (members : List (String × Json)) :
    (ofMembers members).toMembers? = some members := by
  have named (member : String × Json) (_ : member ∈ members) :
      (do let name ← textOf? (piecesOf member.1); some (name, member.2)) = some (id member) := by
    rw [textOf?_piecesOf]
    rfl
  exact (mapM_map_eq_some named).trans (congrArg some (List.map_id members))

/-- Where names are told apart, a member is the only one of its name. -/
theorem filter_name_eq (distinct : (members.map Prod.fst).Nodup) {member : String × Json}
    (listed : member ∈ members) : members.filter (fun other => other.1 == member.1) = [member] := by
  induction members with
  | nil => contradiction
  | cons first rest ih =>
      obtain ⟨fresh, distinct⟩ := List.nodup_cons.mp distinct
      rcases List.mem_cons.mp listed with rfl | later
      · rw [List.filter_cons, if_pos BEq.rfl, List.filter_eq_nil_iff.mpr]
        intro other otherListed same
        exact fresh (eq_of_beq same ▸ List.mem_map_of_mem otherListed)
      · have other : ¬ (first.1 == member.1) = true := by
          intro same
          exact fresh (eq_of_beq same ▸ List.mem_map_of_mem later)
        rw [List.filter_cons, if_neg other, ih distinct later]

theorem memberOf?_of_mem (distinct : (members.map Prod.fst).Nodup) {member : String × Json}
    (listed : member ∈ members) : memberOf? members member.1 = some member.2 := by
  rw [memberOf?, filter_name_eq distinct listed]

/-- Every field is found under its name. -/
theorem fieldsOf?_ofMembers (distinct : (members.map Prod.fst).Nodup) :
    (ofMembers members).fieldsOf? (members.map Prod.fst) = some (members.map Prod.snd) := by
  calc (ofMembers members).fieldsOf? (members.map Prod.fst)
      = (ofMembers members).toMembers?.bind fun named =>
          (members.map Prod.fst).mapM (memberOf? named) := rfl
    _ = some (members.map Prod.snd) := by
      rw [toMembers?_ofMembers, Option.bind_some,
        mapM_map_eq_some fun member listed => memberOf?_of_mem distinct listed]

theorem toVariant?_ofVariant (name : String) (content : Option Json) :
    (ofVariant name content).toVariant? = some (name, content) := by
  cases content with
  | none =>
      rw [ofVariant, ofString, toVariant?, textOf?_piecesOf, Option.map_some]
  | some content =>
      rw [ofVariant, toVariant?, toMembers?_ofMembers]
      · rfl
      · intro pieces impossible
        cases impossible

end Json

/-- The library that is used when the program runs keeps the laws of JSON libraries. -/
theorem JsonLibrary.lawful_standard : standard.Lawful where
  read?_write _ written := Json.ofText?_toText (Json.legible_of_written written)
  toUnit?_null := rfl
  toBool?_ofBool _ := rfl
  toInteger?_ofInteger _ _ _ _ above below := Json.toIntWithin?_ofInt above below
  toText?_ofText := Json.toString?_ofString
  toAddress?_ofAddress := Json.toAddress?_ofAddress
  toList?_ofList _ := rfl
  toFields?_ofFields _ _ distinct named := named ▸ Json.fieldsOf?_ofMembers (named ▸ distinct)
  toVariant?_ofVariant := Json.toVariant?_ofVariant
  unspellBytes?_spellBytes bytes :=
    (congrArg Base64.decode? String.toList_ofList).trans (Base64.decode?_encode bytes)
  present?_null := rfl
  present?_of_ne_null _ present := Json.present?_of_ne_null present
  toInteger?_null _ _ := rfl
  toDouble?_null := rfl
  toText?_null := rfl
  toAddress?_null := rfl
  toList?_null := rfl
  ofDouble_eq_null _ special := Json.ofBinary64_eq_null special

end TokenAccounts
