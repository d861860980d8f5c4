import TokenAccounts.Proofs.Extension.Value

/-!
# The first extension of a kind

A list of extensions may have several values of one kind, among values of other kinds and raw data.
Only the first of them counts.
-/

namespace TokenAccounts

namespace Extension

variable {kind : ExtensionKind} {value other : kind.Value} {extensions : List Extension}

/-- Whether a value is the first of its kind in a list. -/
def IsFirst (kind : ExtensionKind) (value : kind.Value) (extensions : List Extension) : Prop :=
  ∃ before after, extensions = before ++ .typed kind value :: after ∧
    ∀ other, .typed kind other ∉ before

/-- Whether a list has no value of a kind. -/
def Absent (kind : ExtensionKind) (extensions : List Extension) : Prop :=
  ∀ value, .typed kind value ∉ extensions

theorem value?_eq_some_iff {extension : Extension} :
    extension.value? kind = some value ↔ extension = .typed kind value := by
  constructor
  · exact eq_typed_of_value?
  · intro same
    simp [same, value?]

theorem forall_value?_eq_none_iff :
    (∀ extension ∈ extensions, extension.value? kind = none) ↔ Absent kind extensions := by
  constructor
  · intro none value member
    have held := value?_eq_some_iff.mpr (Eq.refl (typed kind value))
    rw [none _ member] at held
    cases held
  · intro absent extension member
    rw [Option.eq_none_iff_forall_ne_some]
    intro value held
    exact absent value (value?_eq_some_iff.mp held ▸ member)

/-- Searching a list for a kind comes to the first value. -/
theorem findSome?_value?_eq_some_iff :
    extensions.findSome? (value? kind) = some value ↔ IsFirst kind value extensions := by
  rw [List.findSome?_eq_some_iff]
  simp only [value?_eq_some_iff, forall_value?_eq_none_iff]
  constructor
  · intro found
    rcases found with ⟨before, extension, after, same, rfl, absent⟩
    exact ⟨before, after, same, absent⟩
  · intro first
    rcases first with ⟨before, after, same, absent⟩
    exact ⟨before, _, after, same, rfl, absent⟩

theorem findSome?_value?_eq_none_iff :
    extensions.findSome? (value? kind) = none ↔ Absent kind extensions := by
  rw [List.findSome?_eq_none_iff, forall_value?_eq_none_iff]

theorem IsFirst.unique (first : IsFirst kind value extensions)
    (second : IsFirst kind other extensions) : value = other := by
  rw [← findSome?_value?_eq_some_iff] at first second
  rw [first] at second
  exact Option.some.inj second

/-- A list has no value of a kind if it has no first one. -/
theorem absent_iff_forall_not_isFirst :
    Absent kind extensions ↔ ∀ value, ¬ IsFirst kind value extensions := by
  rw [← findSome?_value?_eq_none_iff, Option.eq_none_iff_forall_ne_some]
  exact forall_congr' fun _ => not_congr findSome?_value?_eq_some_iff

theorem exists_isFirst (held : ∃ value, .typed kind value ∈ extensions) :
    ∃ value, IsFirst kind value extensions := by
  by_contra none
  rcases held with ⟨value, member⟩
  exact absent_iff_forall_not_isFirst.mpr (not_exists.mp none) value member

end Extension

end TokenAccounts
