import TokenAccounts.Proofs.Json.Fields

/-!
# Records read back

With a lawful library a record without doubles is read back from its form, if no two of its fields
have the same name; a record without fields stands as null.
-/

namespace TokenAccounts

variable {library : JsonLibrary}

/-! ## Layouts -/

namespace Layout

variable {Description : Type} {Value : Description → Type}
variable {encode : (type : Description) → Value type → library.Form}
variable {decode? : (type : Description) → library.Form → Option (Value type)}

theorem map_fst_toNamed (layout : Layout Description) (values : layout.Values Value) :
    (layout.toNamed encode values).map Prod.fst = layout.map Field.name := by
  induction layout with
  | nil => rfl
  | cons field rest ih => simp only [toNamed, List.map_cons, ih]

theorem ofForms?_toNamed {layout : Layout Description}
    (reads : ∀ field ∈ layout, ∀ value : Value field.type,
      decode? field.type (encode field.type value) = some value)
    (values : layout.Values Value) :
    layout.ofForms? decode? ((layout.toNamed encode values).map Prod.snd) = some values := by
  induction layout with
  | nil => rfl
  | cons field rest ih =>
      rw [List.forall_mem_cons] at reads
      simp only [toNamed, List.map_cons, ofForms?, reads.1, ih reads.2, bind, Option.bind_some]

/-- Fields that are told apart by name are found in the form of a record. -/
theorem ofForm?_eq (lawful : library.Lawful) {layout : Layout Description}
    (distinct : (layout.map Field.name).Nodup) (values : layout.Values Value) :
    layout.ofForm? library decode? (library.ofFields (layout.toNamed encode values)) =
      layout.ofForms? decode? ((layout.toNamed encode values).map Prod.snd) := by
  rw [ofForm?, lawful.toFields?_ofFields _ _ distinct (map_fst_toNamed layout values)]
  rfl

/-- Fields that are told apart by name and read back one by one are read back together. -/
theorem ofForm?_toNamed (lawful : library.Lawful) {layout : Layout Description}
    (distinct : (layout.map Field.name).Nodup)
    (reads : ∀ field ∈ layout, ∀ value : Value field.type,
      decode? field.type (encode field.type value) = some value)
    (values : layout.Values Value) :
    layout.ofForm? library decode? (library.ofFields (layout.toNamed encode values)) =
      some values :=
  (ofForm?_eq lawful distinct values).trans (ofForms?_toNamed reads values)

theorem written_toNamed {depth : Nat}
    (each : ∀ type value, library.Written depth (encode type value))
    (layout : Layout Description) (values : layout.Values Value) :
    ∀ member ∈ layout.toNamed encode values, library.Written depth member.2 := by
  induction layout with
  | nil => simp [toNamed]
  | cons field rest ih => exact List.forall_mem_cons.mpr ⟨each _ _, ih values.2⟩

end Layout

/-- Whether a type of field has no doubles, and no two parts of the same name. -/
def FieldType.isExact : FieldType → Bool
  | .plain format => format.isExact
  | .group fields =>
      decide (fields.map Field.name).Nodup && fields.all fun field => field.type.isExact

namespace FieldType

theorem written_toForm (depth : Nat) (type : FieldType) (value : type.Value) :
    library.Written (depth + 3) (type.toForm library value) := by
  cases type with
  | plain format => exact format.written_toForm (depth + 1) value
  | group fields =>
      exact .fields (Layout.written_toNamed (Format.written_toForm depth) fields value)

theorem ofForm?_toForm (lawful : library.Lawful) {type : FieldType} (exact : type.isExact)
    (value : type.Value) : type.ofForm? library (type.toForm library value) = some value := by
  cases type with
  | plain format => exact Format.ofForm?_toForm lawful exact value
  | group fields =>
      obtain ⟨distinct, each⟩ := Bool.and_eq_true_iff.mp exact
      refine Layout.ofForm?_toNamed lawful (of_decide_eq_true distinct) ?_ value
      intro field listed
      exact Format.ofForm?_toForm lawful (List.all_eq_true.mp each field listed)

end FieldType

/-! ## Records -/

namespace Record

variable {α : Type} [Record α]

/-- Whether a record has no doubles, and no two fields of the same name. -/
def IsExact (α : Type) [Record α] : Prop :=
  ((layout α).map Field.name).Nodup ∧ ∀ field ∈ layout α, field.type.isExact = true

theorem written_toForm (depth : Nat) (record : α) :
    library.Written (depth + 4) (toForm library record) := by
  rw [toForm]
  split
  case h_1 => exact .null
  case h_2 =>
      exact .fields (Layout.written_toNamed (FieldType.written_toForm depth) (layout α) _)

/-- A record without doubles is read back. -/
theorem ofForm?_toForm (lawful : library.Lawful) {α : Type} [fields : Record α]
    (exact : IsExact α) (record : α) : ofForm? library (toForm library record) = some record := by
  -- The layout must be a variable for its two cases to be told apart, so the instance is opened.
  cases fields with
  | mk layout toValues ofValues back =>
  obtain ⟨distinct, each⟩ := exact
  cases layout with
  | nil =>
      have unit := lawful.toUnit?_null
      exact (congrArg (Option.map ofValues) unit).trans (congrArg some (back record))
  | cons field rest =>
      have values : Layout.ofForm? library (FieldType.ofForm? library) (field :: rest)
          (library.ofFields (Layout.toNamed (FieldType.toForm library) (field :: rest)
            (toValues record))) = some (toValues record) :=
        Layout.ofForm?_toNamed lawful distinct
          (fun field listed => FieldType.ofForm?_toForm lawful (each field listed))
          (toValues record)
      exact (congrArg (Option.map ofValues) values).trans (congrArg some (back record))

end Record

end TokenAccounts
