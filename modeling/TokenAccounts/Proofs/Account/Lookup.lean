import TokenAccounts.Proofs.Account.Grammar
import TokenAccounts.Proofs.Extension.First

/-!
# Looking for one extension without reading the account

Looking for the bytes of one extension walks over the entries without reading their values.  Main
statements: in an account that can be read it finds the bytes of the first extension of the type,
the one that is found in the list; and on any data, readable or not, it comes to the same end as
reading does, except that it does not see the values that reading refuses.
-/

namespace TokenAccounts

open AccountLayout

namespace Extension

variable {data : List UInt8} {entries : List Entry} {ending : Entry.Ending}
variable {extensions : List Extension} {type : ExtensionType}

/-! ## Data that may not be readable -/

theorem find?_eq_none_of_findBytes_error (divided : Entry.Divides data entries ending)
    {error : Error} (failed : findBytes data type = .error error) :
    entries.find? (·.code == type.code) = none ∧
      ending.outcome (.error .extensionNotFound) =
        (.error error : Except Error (List UInt8)) := by
  rw [findBytes_eq divided type] at failed
  split at failed
  · cases failed
  · next missing => exact ⟨missing, failed⟩

/-- Where the search comes to an entry that is cut short, reading does too, or it refuses a value
in front of that entry. -/
theorem unpackAll_of_findBytes_truncated {code : UInt16} {declared remaining : Nat}
    (truncated :
      findBytes data type = .error (.truncatedExtensionData code declared remaining)) :
    unpackAll data = .error (.truncatedExtensionData code declared remaining) ∨
      ∃ entries left, Entry.Divides data entries (.cut code declared left) ∧
        left.length = remaining ∧ ∃ entry ∈ entries, ∃ error, entry.unpack = .error error ∧
          unpackAll data = .error error := by
  rcases Entry.exists_divides data with ⟨entries, ending, divided⟩
  rcases find?_eq_none_of_findBytes_error divided truncated with ⟨-, same⟩
  cases ending with
  | tail unused => cases same
  | cut code declared left =>
      cases same
      cases read : unpackAll data with
      | ok extensions =>
          rcases (unpackAll_eq_ok_iff divided).mp read with ⟨⟨unused, ending⟩, -⟩
          cases ending
      | error error =>
          rcases (unpackAll_eq_error_iff divided).mp read with
            ⟨before, refused, after, rfl, -, failed⟩ | ⟨-, _, _, _, ending, rfl⟩
          · exact .inr ⟨_, left, divided, rfl, refused, by simp, error, failed, rfl⟩
          · cases ending
            exact .inl rfl

/-- Where the search comes to the end of the entries, reading comes to no entry that is cut short,
and what it reads has no extension of the type. -/
theorem unpackAll_of_findBytes_notFound
    (missing : findBytes data type = .error .extensionNotFound) :
    (∀ code declared remaining,
        unpackAll data ≠ .error (.truncatedExtensionData code declared remaining)) ∧
      ∀ extensions, unpackAll data = .ok extensions →
        ∀ extension ∈ extensions, extension.code ≠ type.code := by
  rcases Entry.exists_divides data with ⟨entries, ending, divided⟩
  rcases find?_eq_none_of_findBytes_error divided missing with ⟨absent, same⟩
  cases ending with
  | cut code declared left => cases same
  | tail unused =>
      constructor
      · intro code declared remaining truncated
        rcases (unpackAll_eq_error_iff divided).mp truncated with
          ⟨before, refused, after, -, -, failed⟩ | ⟨-, _, _, _, ending, -⟩
        · exact unpack_ne_truncated failed
        · cases ending
      · intro extensions read extension member
        rcases (unpackAll_eq_ok_iff divided).mp read with ⟨-, held⟩
        rcases of_unpack_entries divided.sound held with ⟨rfl, -⟩
        have other := List.find?_eq_none.mp absent _ (List.mem_map_of_mem member)
        simpa [toEntry] using other

/-! ## Data that was read -/

/-- The first value of a kind is that of the first extension with its code. -/
theorem findSome?_value? (proper : ∀ extension ∈ extensions, extension.Proper)
    (kind : ExtensionKind) :
    extensions.findSome? (value? kind) =
      (extensions.find? (·.code == kind.code)).bind (value? kind) := by
  induction extensions with
  | nil => rfl
  | cons extension extensions ih =>
      rcases List.forall_mem_cons.mp proper with ⟨first, others⟩
      by_cases same : extension.code = kind.code
      · have held : (extension.value? kind).isSome := by
          rw [← Option.ne_none_iff_isSome, Ne, value?_eq_none_iff first]
          exact not_not_intro same
        rw [List.findSome?_cons_of_isSome held, List.find?_cons_of_pos (by simpa using same)]
        rfl
      · have absent := (value?_eq_none_iff first kind).mpr same
        rw [List.findSome?_cons_of_isNone (by simp [absent]),
          List.find?_cons_of_neg (by simpa using same)]
        exact ih others

/-- In data that was read, the search finds the bytes of the first extension of the type. -/
theorem findBytes_of_unpackAll (read : unpackAll data = .ok extensions) :
    findBytes data type =
      match extensions.find? (·.code == type.code) with
      | some extension => .ok extension.write
      | none => .error .extensionNotFound := by
  rcases Entry.exists_divides data with ⟨entries, ending, divided⟩
  rcases (unpackAll_eq_ok_iff divided).mp read with ⟨⟨unused, rfl⟩, held⟩
  rcases of_unpack_entries divided.sound held with ⟨rfl, -⟩
  rw [findBytes_eq divided type, List.find?_map]
  have codes : (fun entry : Entry => entry.code == type.code) ∘ toEntry =
      fun extension => extension.code == type.code := rfl
  rw [codes]
  cases extensions.find? fun extension => extension.code == type.code <;> rfl

end Extension

namespace Account

variable {kind : AccountKind} {data : List UInt8} {account : Account kind} {type : ExtensionType}

theorem findBytes_of_bare (belongs : type.accountType = kind.type)
    (bare : data.length = kind.baseLength) :
    findBytes kind data type = .error .extensionNotFound := by
  rw [findBytes, checkBelongs, if_pos belongs, Outcome.ok_bind, check_of_bare bare,
    Outcome.ok_bind, if_pos bare]
  rfl

theorem findBytes_of_extended (belongs : type.accountType = kind.type)
    (extended : Extended kind data) :
    findBytes kind data type = Extension.findBytes (data.drop entriesStart) type := by
  have bare : data.length ≠ kind.baseLength := Nat.ne_of_gt extended.baseLength_lt
  rw [findBytes, checkBelongs, if_pos belongs, Outcome.ok_bind, check_of_extended extended,
    Outcome.ok_bind, if_neg bare]

/-- In an account that was read, the search finds the bytes of the first extension of the type. -/
theorem findBytes_of_unpack (belongs : type.accountType = kind.type)
    (unpacked : unpack kind data = .ok account) :
    findBytes kind data type =
      match account.list.find? (·.code == type.code) with
      | some extension => .ok extension.write
      | none => .error .extensionNotFound := by
  rcases account with ⟨base, extensions⟩
  cases extensions with
  | none => exact findBytes_of_bare belongs (unpack_eq_ok_none_iff.mp unpacked).1
  | some extensions =>
      rcases unpack_eq_ok_some_iff.mp unpacked with ⟨extended, -, listed⟩
      rw [findBytes_of_extended belongs extended]
      exact Extension.findBytes_of_unpackAll listed

/-- The extensions of an account that was read are those that can be written and read back. -/
theorem readBack_of_unpack (unpacked : unpack kind data = .ok account) :
    ∀ extension ∈ account.list, extension.obstacle? = none ∧ extension.Settled := by
  rcases account with ⟨base, extensions⟩
  cases extensions with
  | none =>
      intro extension member
      cases member
  | some extensions =>
      rcases unpack_eq_ok_some_iff.mp unpacked with ⟨-, -, listed⟩
      rcases Extension.of_unpackAll listed with ⟨_, -, -, readBack⟩
      exact readBack

theorem checkBelongs_eq_ok_iff :
    checkBelongs kind type = .ok () ↔ type.accountType = kind.type := by
  unfold checkBelongs
  split
  · next belongs => simp [belongs]
  · next foreign => simp [foreign]

/-- What is got is the first value of the kind. -/
theorem get_eq_ok_iff {wanted : ExtensionKind} (belongs : wanted.accountType = kind.type)
    {value : wanted.Value} :
    account.get wanted = .ok value ↔
      account.list.findSome? (Extension.value? wanted) = some value := by
  have allowed : checkBelongs kind (.holding wanted) = .ok () :=
    checkBelongs_eq_ok_iff.mpr belongs
  rw [get, allowed, Outcome.ok_bind]
  cases account.list.findSome? (Extension.value? wanted) with
  | none => exact ⟨fun got => (by cases got), fun found => (by cases found)⟩
  | some held => exact ⟨fun got => (by cases got; rfl), fun found => (by cases found; rfl)⟩

theorem get_eq_ok_iff_isFirst {wanted : ExtensionKind} (belongs : wanted.accountType = kind.type)
    {value : wanted.Value} :
    account.get wanted = .ok value ↔ Extension.IsFirst wanted value account.list :=
  (get_eq_ok_iff belongs).trans Extension.findSome?_value?_eq_some_iff

theorem exists_get_eq_error_iff {wanted : ExtensionKind}
    (belongs : wanted.accountType = kind.type) :
    (∃ error, account.get wanted = .error error) ↔ Extension.Absent wanted account.list := by
  rw [Extension.absent_iff_forall_not_isFirst]
  simp only [← get_eq_ok_iff_isFirst belongs]
  cases account.get wanted with
  | ok value => simp
  | error error => simp

/-- The first extension of a type that belongs to the account holds the value that is got. -/
theorem get_of_find?_eq_some {extension : Extension} (belongs : type.accountType = kind.type)
    (proper : ∀ extension ∈ account.list, extension.Proper)
    (found : account.list.find? (·.code == type.code) = some extension) :
    ∃ wanted value, type = .holding wanted ∧ extension = .typed wanted value ∧
      account.get wanted = .ok value := by
  cases type with
  | uninitialized => cases kind <;> cases belongs
  | holding wanted =>
      have code : extension.code = wanted.code := by
        simpa [ExtensionType.code] using List.find?_some found
      have present : extension.value? wanted ≠ none := by
        rw [Ne, Extension.value?_eq_none_iff (proper _ (List.mem_of_find?_eq_some found))]
        exact not_not_intro code
      rcases Option.ne_none_iff_exists'.mp present with ⟨value, held⟩
      refine ⟨wanted, value, rfl, Extension.eq_typed_of_value? held, ?_⟩
      rw [get_eq_ok_iff belongs, Extension.findSome?_value? proper]
      simp only [ExtensionType.code] at found
      rw [found, Option.bind_some, held]

/-- Looking for the bytes of an extension agrees with reading the account.  In an account that can
be read, the bytes are those of the first extension of the type, which is the one that is got from
the list.  On any data, an entry that is cut short is an error for reading too, unless the value of
an entry in front of it is one already; and if there is no entry of the type, reading comes to no
entry that is cut short and to no extension of the type. -/
theorem findBytes_agrees_with_unpack (kind : AccountKind) (type : ExtensionType) :
    (∀ data account, type.accountType = kind.type → unpack kind data = .ok account →
      (∀ bytes, findBytes kind data type = .ok bytes ↔
        ∃ extension, account.list.find? (·.code == type.code) = some extension ∧
          extension.write = bytes) ∧
      (∀ extension, account.list.find? (·.code == type.code) = some extension →
        Extension.unpack type.code extension.write = .ok extension ∧
        ∃ wanted value, type = .holding wanted ∧ extension = .typed wanted value ∧
          account.get wanted = .ok value) ∧
      ((∀ extension ∈ account.list, extension.code ≠ type.code) →
        findBytes kind data type = .error .extensionNotFound)) ∧
    (∀ data,
      (∀ code declared remaining,
        Extension.findBytes data type =
            .error (.truncatedExtensionData code declared remaining) →
          Extension.unpackAll data =
              .error (.truncatedExtensionData code declared remaining) ∨
            ∃ entries left, Entry.Divides data entries (.cut code declared left) ∧
              left.length = remaining ∧ ∃ entry ∈ entries, ∃ error, entry.unpack = .error error ∧
                Extension.unpackAll data = .error error) ∧
      (Extension.findBytes data type = .error .extensionNotFound →
        (∀ code declared remaining, Extension.unpackAll data ≠
          .error (.truncatedExtensionData code declared remaining)) ∧
        ∀ extensions, Extension.unpackAll data = .ok extensions →
          ∀ extension ∈ extensions, extension.code ≠ type.code)) := by
  constructor
  · intro data account belongs unpacked
    have search := findBytes_of_unpack belongs unpacked
    have readBack := readBack_of_unpack unpacked
    refine ⟨?finds, ?reads, ?misses⟩
    case finds =>
      intro bytes
      rw [search]
      cases account.list.find? (·.code == type.code) <;> simp
    case reads =>
      intro extension found
      rcases readBack _ (List.mem_of_find?_eq_some found) with ⟨writable, settled⟩
      have code : extension.code = type.code := by simpa using List.find?_some found
      constructor
      · rw [← code, Extension.unpack_write writable,
          extension.normalize_eq_self_iff.mpr settled]
      · apply get_of_find?_eq_some belongs _ found
        intro other member
        exact (other.obstacle?_eq_none_iff.mp (readBack other member).1).2.1
    case misses =>
      intro absent
      have missing : account.list.find? (·.code == type.code) = none :=
        List.find?_eq_none.mpr fun extension member => by simpa using absent extension member
      rw [search, missing]
  · intro data
    exact ⟨fun _ _ _ => Extension.unpackAll_of_findBytes_truncated,
      Extension.unpackAll_of_findBytes_notFound⟩

/-- A token account with two entries of one type. -/
def doubledToken : List UInt8 :=
  List.replicate 165 0 ++ [2] ++ [8, 0, 1, 0, 1] ++ [8, 0, 1, 0, 0]

/-- Entries of which the first has a value that is refused, and the second is cut short. -/
def spoiledEntries : List UInt8 := [8, 0, 1, 0, 9] ++ [7, 0, 5, 0, 1]

/-- The first of two entries is found, and a refused value is not seen. -/
theorem findBytes_doubledToken :
    (∃ account, unpack .token doubledToken = .ok account ∧
      findBytes .token doubledToken (.holding .memoTransfer) = .ok [1]) ∧
    (Extension.findBytes spoiledEntries (.holding .cpiGuard) =
        .error (.truncatedExtensionData 7 5 1) ∧
      ∃ error, Extension.unpackAll spoiledEntries = .error error) := by
  constructor
  · have divided : Entry.Divides (doubledToken.drop entriesStart) [⟨8, [1]⟩, ⟨8, [0]⟩]
        (.tail []) := by
      refine ⟨by decide +kernel, ?_, .inl (by decide)⟩
      simp only [List.forall_mem_cons]
      exact ⟨⟨by decide, by decide⟩, ⟨by decide, by decide⟩, by simp⟩
    have extended : Extended .token doubledToken :=
      ⟨by decide +kernel, by decide +kernel, by decide +kernel, by decide +kernel⟩
    obtain ⟨base, based⟩ : ∃ base, unpackBase .token doubledToken = .ok base :=
      ⟨⟨.zero _, .zero _, 0, none, .uninitialized, none, 0, none⟩, by decide +kernel⟩
    have unpacked := unpack_eq_ok_iff.mpr
      (.extended extended based divided (.cons rfl (.cons rfl .nil)))
    obtain ⟨finds, -, -⟩ :=
      (findBytes_agrees_with_unpack .token (.holding .memoTransfer)).1 _ _ rfl unpacked
    exact ⟨_, unpacked, (finds [1]).mpr ⟨.typed .memoTransfer ⟨true⟩, rfl, rfl⟩⟩
  · have divided : Entry.Divides spoiledEntries [⟨8, [9]⟩] (.cut 7 5 [1]) := by
      refine ⟨by decide, ?_, by decide, by decide, by decide⟩
      simp only [List.forall_mem_cons]
      exact ⟨⟨by decide, by decide⟩, by simp⟩
    have truncated : Extension.findBytes spoiledEntries (.holding .cpiGuard) =
        .error (.truncatedExtensionData 7 5 1) :=
      (Extension.findBytes_eq divided _).trans rfl
    refine ⟨truncated, ?_⟩
    rcases ((findBytes_agrees_with_unpack .token (.holding .cpiGuard)).2 spoiledEntries).1 _ _ _
      truncated with same | ⟨_, _, -, -, _, -, error, -, failed⟩
    · exact ⟨_, same⟩
    · exact ⟨error, failed⟩

end Account

end TokenAccounts
