import TokenAccounts.Proofs.Account.Lookup

/-!
# The extensions of an account as a store

An account keeps the values of its extensions in order, and the first value of a kind is the one
that counts: it is got, and it is overwritten where it stands.  A new value goes to the end.  Main
statements: each of these leaves alone all that it is not about, a call that is refused leaves the
whole account alone, and through any run of calls the list only ever grows at its end.
-/

namespace TokenAccounts

namespace Extension

variable {kind other : ExtensionKind} {extensions before after : List Extension}

theorem value?_typed (value : kind.Value) : (typed kind value).value? kind = some value :=
  value?_eq_some_iff.mpr rfl

theorem value?_typed_of_ne (different : other ≠ kind) (value : kind.Value) :
    (typed kind value).value? other = none :=
  dif_neg different.symm

/-- A value has no part in what is found of another kind. -/
theorem findSome?_value?_of_ne (different : other ≠ kind) (value : kind.Value) :
    (before ++ typed kind value :: after).findSome? (value? other) =
      (before ++ after).findSome? (value? other) := by
  rw [List.findSome?_append, List.findSome?_append, List.findSome?_cons,
    value?_typed_of_ne different]

end Extension

namespace Account

open AccountLayout Extension

variable {kind : AccountKind} {account changed : Account kind} {wanted other : ExtensionKind}
variable {extensions : List Extension} {value held : wanted.Value} {error : Error}

/-! ## Calls -/

/-- One call on the list of an account. -/
inductive Call where
  | get (wanted : ExtensionKind)
  | push (wanted : ExtensionKind) (value : wanted.Value)
  /-- Change the first value of a kind in its place. -/
  | overwrite (wanted : ExtensionKind) (change : wanted.Value → wanted.Value)

/-- What comes back from a call, and the account afterwards. -/
def Call.perform (account : Account kind) : Call → Except Error (Option Extension) × Account kind
  | .get wanted => ((account.get wanted).map fun value => some (.typed wanted value), account)
  | .push wanted value =>
      let (outcome, changed) := account.pushValue wanted value
      (outcome.map fun _ => none, changed)
  | .overwrite wanted change =>
      match account.place wanted with
      | .ok found => (.ok none, found.put (change found.value))
      | .error error => (.error error, account)

/-- The account after a run of calls. -/
def run (account : Account kind) (calls : List Call) : Account kind :=
  calls.foldl (fun account call => (call.perform account).2) account

/-! ## The place of a value -/

theorem belongs_of_get (got : account.get wanted = .ok value) :
    wanted.accountType = kind.type := by
  rcases Outcome.bind_eq_ok_iff.mp got with ⟨_, checked, -⟩
  exact checkBelongs_eq_ok_iff.mp checked

/-- The place that is found is that of the value that is found. -/
theorem map_fst_findPlace? (wanted : ExtensionKind) (extensions : List Extension) :
    (findPlace? wanted extensions).map Prod.fst = extensions.findSome? (value? wanted) := by
  induction extensions with
  | nil => rfl
  | cons extension rest ih =>
      rw [findPlace?, List.findSome?_cons, ← ih]
      cases extension.value? wanted with
      | none =>
          rw [Option.map_map]
          rfl
      | some value => rfl

/-- Nothing in front of a place is of its kind, and putting a value there changes nothing else. -/
theorem exists_of_findPlace? {put : wanted.Value → List Extension}
    (found : findPlace? wanted extensions = some (value, put)) :
    ∃ before after, extensions = before ++ .typed wanted value :: after ∧
      Absent wanted before ∧ ∀ other, put other = before ++ .typed wanted other :: after := by
  induction extensions generalizing put with
  | nil => cases found
  | cons extension rest ih =>
      rw [findPlace?] at found
      split at found
      · next held first =>
          cases found
          have same : extension = .typed wanted value := value?_eq_some_iff.mp first
          exact ⟨[], rest, by rw [same, List.nil_append], fun _ => List.not_mem_nil,
            fun other => rfl⟩
      · next foreign =>
          rcases Option.map_eq_some_iff.mp found with ⟨⟨_, others⟩, later, same⟩
          cases same
          rcases ih later with ⟨before, after, rfl, absent, puts⟩
          refine ⟨extension :: before, after, rfl, ?_, fun other => ?_⟩
          · intro other member
            rcases List.mem_cons.mp member with same | earlier
            · rw [← same, value?_typed] at foreign
              cases foreign
            · exact absent other earlier
          · rw [List.cons_append, ← puts other]

/-- A value is found in its place just if it is got, and a failure is the same. -/
theorem map_value_place (account : Account kind) (wanted : ExtensionKind) :
    (account.place wanted).map Place.value = account.get wanted := by
  have searched : (account.extensions.bind (findPlace? wanted)).map Prod.fst =
      account.list.findSome? (value? wanted) := by
    rw [list]
    cases account.extensions with
    | none => rfl
    | some extensions => exact map_fst_findPlace? wanted extensions
  rw [place, get, ← searched]
  cases checkBelongs kind (.holding wanted) with
  | error error => rfl
  | ok _ => cases account.extensions.bind (findPlace? wanted) <;> rfl

theorem get_of_place {found : Place kind wanted} (placed : account.place wanted = .ok found) :
    account.get wanted = .ok found.value := by
  rw [← map_value_place, placed]
  rfl

theorem exists_of_place {found : Place kind wanted} (placed : account.place wanted = .ok found) :
    ∃ before after, account.extensions = some (before ++ .typed wanted found.value :: after) ∧
      Absent wanted before ∧
      ∀ value, found.put value = ⟨account.base, some (before ++ .typed wanted value :: after)⟩ := by
  rcases Outcome.bind_eq_ok_iff.mp placed with ⟨_, -, searched⟩
  split at searched
  · next value put located =>
      cases searched
      rcases Option.bind_eq_some_iff.mp located with ⟨extensions, listed, first⟩
      rcases exists_of_findPlace? first with ⟨before, after, rfl, absent, puts⟩
      refine ⟨before, after, listed, absent, fun other => ?_⟩
      rw [← puts other]
  · cases searched

/-! ## Putting a value at the end -/

theorem pushValue_of_belongs (belongs : wanted.accountType = kind.type) :
    account.pushValue wanted value = (.ok (), account.push (.typed wanted value)) := by
  have checked : checkBelongs kind (.holding wanted) = .ok () :=
    checkBelongs_eq_ok_iff.mpr belongs
  rw [pushValue, checked]

theorem pushValue_of_foreign (foreign : wanted.accountType ≠ kind.type) :
    account.pushValue wanted value =
      (.error (.invalidExtensionAccountType (.holding wanted) kind.type), account) := by
  have refused : checkBelongs kind (.holding wanted) =
      .error (.invalidExtensionAccountType (.holding wanted) kind.type) := if_neg foreign
  rw [pushValue, refused]

theorem add_eq_ok_iff :
    account.add wanted value = .ok changed ↔
      wanted.accountType = kind.type ∧ changed = account.push (.typed wanted value) := by
  rw [add]
  by_cases belongs : wanted.accountType = kind.type
  · rw [pushValue_of_belongs belongs, and_iff_right belongs]
    exact ⟨fun same => (by cases same; rfl), fun same => (by cases same; rfl)⟩
  · rw [pushValue_of_foreign belongs]
    constructor
    · intro impossible
      cases impossible
    · intro conditions
      exact absurd conditions.1 belongs

/-! ## What is got afterwards -/

/-- What is got depends on nothing but the first value of its kind. -/
theorem get_congr
    (same : changed.list.findSome? (value? wanted) = account.list.findSome? (value? wanted)) :
    changed.get wanted = account.get wanted := by
  rw [get, get, same]

theorem get_push_of_get (got : account.get wanted = .ok held) (extension : Extension) :
    (account.push extension).get wanted = .ok held := by
  have belongs := belongs_of_get got
  rw [get_eq_ok_iff belongs] at got ⊢
  rw [push, list, Option.getD_some, List.findSome?_append, got, Option.some_or]

theorem get_push_of_missing (belongs : wanted.accountType = kind.type)
    (missing : ∀ held, account.get wanted ≠ .ok held) :
    (account.push (.typed wanted value)).get wanted = .ok value := by
  have absent : Absent wanted account.list :=
    absent_iff_forall_not_isFirst.mpr fun held first =>
      missing held ((get_eq_ok_iff_isFirst belongs).mpr first)
  exact (get_eq_ok_iff_isFirst belongs).mpr ⟨account.list, [], rfl, absent⟩

theorem get_push_of_ne (different : other ≠ wanted) :
    (account.push (.typed wanted value)).get other = account.get other := by
  apply get_congr
  rw [push, list, Option.getD_some, findSome?_value?_of_ne different, List.append_nil]

section Putting

variable {found : Place kind wanted}

theorem get_put (placed : account.place wanted = .ok found) (value : wanted.Value) :
    (found.put value).get wanted = .ok value := by
  rcases exists_of_place placed with ⟨before, after, -, absent, puts⟩
  rw [puts value, get_eq_ok_iff_isFirst (belongs_of_get (get_of_place placed))]
  exact ⟨before, after, rfl, absent⟩

theorem get_put_of_ne (placed : account.place wanted = .ok found) (value : wanted.Value)
    (different : other ≠ wanted) : (found.put value).get other = account.get other := by
  rcases exists_of_place placed with ⟨before, after, listed, -, puts⟩
  apply get_congr
  rw [puts value, list, list, listed, Option.getD_some, Option.getD_some,
    findSome?_value?_of_ne different, findSome?_value?_of_ne different]

/-- Putting a value keeps the codes of the list. -/
theorem codes_put (placed : account.place wanted = .ok found) (value : wanted.Value) :
    (found.put value).list.map Extension.code = account.list.map Extension.code := by
  rcases exists_of_place placed with ⟨before, after, listed, -, puts⟩
  rw [puts value, list, list, listed]
  simp only [Option.getD_some, List.map_append, List.map_cons, Extension.code]

end Putting

/-! ## Runs -/

@[simp] theorem run_nil (account : Account kind) : account.run [] = account := rfl

/-- A run goes on from the account that its first call leaves. -/
@[simp] theorem run_cons (account : Account kind) (call : Call) (calls : List Call) :
    account.run (call :: calls) = (call.perform account).2.run calls := rfl

/-- An overwrite that succeeds changes the first value of its kind, and nothing else. -/
theorem Call.perform_overwrite_of_place {found : Place kind wanted}
    (placed : account.place wanted = .ok found) (change : wanted.Value → wanted.Value) :
    ∃ before after, account.extensions = some (before ++ .typed wanted found.value :: after) ∧
      Absent wanted before ∧
      (Call.overwrite wanted change).perform account = (.ok none,
        ⟨account.base, some (before ++ .typed wanted (change found.value) :: after)⟩) := by
  obtain ⟨before, after, listed, absent, puts⟩ := exists_of_place placed
  refine ⟨before, after, listed, absent, ?_⟩
  rw [perform, placed]
  exact congrArg _ (puts (change found.value))

/-- An overwrite that fails leaves the account as it is. -/
theorem Call.perform_overwrite_of_error (missing : account.place wanted = .error error)
    (change : wanted.Value → wanted.Value) :
    (Call.overwrite wanted change).perform account = (.error error, account) := by
  rw [perform, missing]

/-- A call keeps the base record and what the codes of the list were. -/
theorem Call.kept_by_perform (account : Account kind) (call : Call) :
    (call.perform account).2.base = account.base ∧
      account.list.map Extension.code <+: (call.perform account).2.list.map Extension.code := by
  cases call with
  | get wanted => exact ⟨rfl, List.prefix_rfl⟩
  | push wanted value =>
      rw [perform]
      by_cases belongs : wanted.accountType = kind.type
      · rw [pushValue_of_belongs belongs]
        refine ⟨rfl, ?_⟩
        rw [Account.push, list, list, Option.getD_some, List.map_append]
        exact List.prefix_append _ _
      · rw [pushValue_of_foreign belongs]
        exact ⟨rfl, List.prefix_rfl⟩
  | overwrite wanted change =>
      cases placed : account.place wanted with
      | error error =>
          rw [perform_overwrite_of_error placed]
          exact ⟨rfl, List.prefix_rfl⟩
      | ok found =>
          obtain ⟨before, after, listed, -, performed⟩ := perform_overwrite_of_place placed change
          rw [performed, list, list, listed]
          simp [Extension.code]

/-- A run of calls keeps the base record and what the codes of the list were. -/
theorem kept_by_run (account : Account kind) (calls : List Call) :
    (account.run calls).base = account.base ∧
      account.list.map Extension.code <+: (account.run calls).list.map Extension.code := by
  induction calls generalizing account with
  | nil =>
      rw [run_nil]
      exact ⟨rfl, List.prefix_rfl⟩
  | cons call calls ih =>
      rcases call.kept_by_perform account with ⟨sameBase, grown⟩
      rcases ih (call.perform account).2 with ⟨stillBase, grownAgain⟩
      rw [run_cons]
      exact ⟨stillBase.trans sameBase, grown.trans grownAgain⟩

/-- The extensions of an account are an ordered store in which the first value of a kind counts.  A
value of a foreign kind is refused and the account left as it is; any other goes to the end of the
list, which is made if there is none, and counts if it is the first of its kind.  A value is found
in its place just if it is got, and the failures are the same; another value put in that place is
got from there on, and all else stays as it was, as the whole account does where there is no place.
Through any run of calls the codes of the list are kept, and more come behind them. -/
theorem extensions_are_ordered_store (account : Account kind) :
    (∀ (wanted : ExtensionKind) (value : wanted.Value),
      (wanted.accountType ≠ kind.type →
        account.pushValue wanted value =
          (.error (.invalidExtensionAccountType (.holding wanted) kind.type), account)) ∧
      (wanted.accountType = kind.type → ∃ changed,
        account.pushValue wanted value = (.ok (), changed) ∧
        changed = ⟨account.base, some (account.list ++ [.typed wanted value])⟩ ∧
        (∀ held, account.get wanted = .ok held → changed.get wanted = .ok held) ∧
        ((∀ held, account.get wanted ≠ .ok held) → changed.get wanted = .ok value) ∧
        ∀ other, other ≠ wanted → changed.get other = account.get other)) ∧
    (∀ wanted : ExtensionKind,
      (account.place wanted).map Place.value = account.get wanted ∧
      (∀ error, account.get wanted = .error error → ∀ change,
        (Call.overwrite wanted change).perform account = (.error error, account)) ∧
      ∀ found, account.place wanted = .ok found →
        (∃ before after,
          account.extensions = some (before ++ .typed wanted found.value :: after) ∧
          Absent wanted before ∧
          ∀ value, found.put value =
            ⟨account.base, some (before ++ .typed wanted value :: after)⟩) ∧
        ∀ value, (found.put value).get wanted = .ok value ∧
          (found.put value).list.map Extension.code = account.list.map Extension.code ∧
          ∀ other, other ≠ wanted → (found.put value).get other = account.get other) ∧
    ∀ calls, account.list.map Extension.code <+:
      (account.run calls).list.map Extension.code := by
  refine ⟨?pushing, ?overwriting, fun calls => (account.kept_by_run calls).2⟩
  case pushing =>
    intro wanted value
    refine ⟨pushValue_of_foreign, fun belongs => ⟨_, pushValue_of_belongs belongs, rfl, ?_⟩⟩
    exact ⟨fun held got => get_push_of_get got _, get_push_of_missing belongs,
      fun other => get_push_of_ne⟩
  case overwriting =>
    intro wanted
    refine ⟨account.map_value_place wanted, ?failure, ?put⟩
    case failure =>
      intro error missing change
      rw [← map_value_place, Outcome.map_eq_error_iff] at missing
      exact Call.perform_overwrite_of_error missing change
    case put =>
      intro found placed
      exact ⟨exists_of_place placed, fun value =>
        ⟨get_put placed value, codes_put placed value, fun other => get_put_of_ne placed value⟩⟩

/-- A token account with two memo requirements behind raw data under their code, and an extension of
mints between them. -/
def mixedToken : Account .token where
  base := ⟨.zero _, .zero _, 0, none, .initialized, none, 0, none⟩
  extensions := some [.unparsed 8 [1], .typed .memoTransfer ⟨false⟩, .typed .pausable ⟨none, true⟩,
    .typed .memoTransfer ⟨true⟩]

/-- Only the first requirement is overwritten, a further one does not count, and an extension of
mints is neither put in the account nor found there. -/
theorem store_of_mixedToken :
    (∃ changed, mixedToken.pushValue .memoTransfer ⟨true⟩ = (.ok (), changed) ∧
      changed.get .memoTransfer = .ok ⟨false⟩) ∧
    (∃ changed, mixedToken.pushValue .cpiGuard ⟨true⟩ = (.ok (), changed) ∧
      changed.get .cpiGuard = .ok ⟨true⟩ ∧ changed.get .memoTransfer = .ok ⟨false⟩) ∧
    mixedToken.pushValue .pausable ⟨none, false⟩ =
      (.error (.invalidExtensionAccountType (.holding .pausable) .account), mixedToken) ∧
    (Call.overwrite .pausable fun _ => ⟨none, false⟩).perform mixedToken =
      (.error (.invalidExtensionAccountType (.holding .pausable) .account), mixedToken) ∧
    ∃ found, mixedToken.place .memoTransfer = .ok found ∧
      (found.put ⟨true⟩).get .memoTransfer = .ok ⟨true⟩ ∧
      (found.put ⟨true⟩).get .cpiGuard = .error .extensionNotFound := by
  have got : mixedToken.get .memoTransfer = .ok ⟨false⟩ := rfl
  rcases extensions_are_ordered_store mixedToken with ⟨pushing, overwriting, -⟩
  refine ⟨?again, ?further, (pushing .pausable _).1 (by decide),
    (overwriting .pausable).2.1 _ rfl _, ?put⟩
  case again =>
    rcases (pushing .memoTransfer ⟨true⟩).2 rfl with ⟨changed, pushed, -, kept, -⟩
    exact ⟨changed, pushed, kept _ got⟩
  case further =>
    rcases (pushing .cpiGuard ⟨true⟩).2 rfl with ⟨changed, pushed, -, -, first, others⟩
    refine ⟨changed, pushed, first fun held impossible => ?_, ?_⟩
    · cases impossible
    · rw [others .memoTransfer (by decide), got]
  case put =>
    have placed : mixedToken.place .memoTransfer = .ok _ := rfl
    rcases ((overwriting .memoTransfer).2.2 _ placed).2 ⟨true⟩ with ⟨put, -, others⟩
    refine ⟨_, placed, put, ?_⟩
    rw [others .cpiGuard (by decide)]
    rfl

end Account

end TokenAccounts
