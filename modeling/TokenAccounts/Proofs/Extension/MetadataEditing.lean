import Mathlib.Data.Finmap
import TokenAccounts.Extension.Metadata

/-!
# Editing metadata

The table of metadata may have several rows with one key.  A look-up finds the first of them, an
update changes the first, and a removal takes out all.  Main statement: through any run of updates,
removals and look-ups, metadata behaves as three texts and a finite map, and its table keeps the
order of its keys.
-/

namespace TokenAccounts

namespace TokenMetadata

variable {metadata : TokenMetadata} {rows : List (String × String)} {key other text : String}

/-! ## Runs of steps -/

/-- One use of metadata. -/
inductive Step where
  | update (field : MetadataField) (text : String)
  | remove (key : String)
  | get (key : String)

/-- What comes back from a step. -/
inductive Answer where
  | done
  | refused (error : Error)
  | found (text : Option String)
  deriving DecidableEq

/-- The answer to a step and the metadata after it. -/
def perform (metadata : TokenMetadata) : Step → Answer × TokenMetadata
  | .update field text => (.done, metadata.update field text)
  | .remove key =>
      match metadata.removeRows key with
      | (.ok (), edited) => (.done, edited)
      | (.error error, edited) => (.refused error, edited)
  | .get key => (.found (metadata.get? key), metadata)

/-- The answers to a run of steps, and the state after it. -/
def runSteps {State : Type} (perform : State → Step → Answer × State) (state : State) :
    List Step → List Answer × State
  | [] => ([], state)
  | step :: steps =>
      let (answer, next) := perform state step
      let (answers, final) := runSteps perform next steps
      (answer :: answers, final)

/-- The answers to a run of steps, and the metadata after it. -/
def run (metadata : TokenMetadata) (steps : List Step) : List Answer × TokenMetadata :=
  runSteps perform metadata steps

/-- What every step keeps, a run keeps. -/
theorem run_induction (property : TokenMetadata → Prop)
    (kept : ∀ metadata step, property metadata → property (perform metadata step).2)
    (start : property metadata) (steps : List Step) : property (metadata.run steps).2 := by
  induction steps generalizing metadata with
  | nil => exact start
  | cons step steps ih => exact ih (kept metadata step start)

/-! ## Metadata as texts and a map -/

/-- What readers see of metadata: three texts, and a map from keys to texts. -/
structure View where
  name : String
  symbol : String
  uri : String
  texts : Finmap fun _ : String => String

/-- The map of a table.  Of several rows with one key, the first counts. -/
def textsOf : List (String × String) → Finmap fun _ : String => String
  | [] => ∅
  | row :: rest => (textsOf rest).insert row.1 row.2

/-- Metadata as readers see it. -/
def view (metadata : TokenMetadata) : View where
  name := metadata.name
  symbol := metadata.symbol
  uri := metadata.uri
  texts := textsOf metadata.additionalMetadata

/-- The answer to a step, and what is seen after it. -/
def View.perform (view : View) : Step → Answer × View
  | .update .name text => (.done, { view with name := text })
  | .update .symbol text => (.done, { view with symbol := text })
  | .update .uri text => (.done, { view with uri := text })
  | .update (.key key) text => (.done, { view with texts := view.texts.insert key text })
  | .remove key =>
      if key ∈ view.texts then (.done, { view with texts := view.texts.erase key })
      else (.refused (.missingExtensionField .tokenMetadata key), view)
  | .get key => (.found (view.texts.lookup key), view)

/-- The answers to a run of steps, and what is seen after it. -/
def View.run (view : View) (steps : List Step) : List Answer × View :=
  runSteps View.perform view steps

/-! ## Tables and maps -/

/-- The rows of a table that are not under a key. -/
def rowsWithout (key : String) (rows : List (String × String)) : List (String × String) :=
  rows.filter fun row => row.1 ≠ key

theorem rowsWithout_cons (key : String) (row : String × String) (rest : List (String × String)) :
    rowsWithout key (row :: rest) =
      if row.1 = key then rowsWithout key rest else row :: rowsWithout key rest := by
  by_cases same : row.1 = key <;> simp [rowsWithout, same]

theorem lookup_cons (key first text : String) (rest : List (String × String)) :
    List.lookup key ((first, text) :: rest) =
      if key = first then some text else rest.lookup key := by
  rw [List.lookup_cons]
  by_cases same : key = first
  · rw [if_pos same, beq_iff_eq.mpr same]
  · rw [if_neg same, beq_eq_false_iff_ne.mpr same]

/-- The map has the first text of every key. -/
theorem lookup_textsOf (rows : List (String × String)) (key : String) :
    (textsOf rows).lookup key = rows.lookup key := by
  induction rows with
  | nil => rfl
  | cons row rest ih =>
      rcases row with ⟨first, text⟩
      rw [textsOf, lookup_cons]
      by_cases same : key = first
      · subst same
        rw [Finmap.lookup_insert, if_pos rfl]
      · rw [Finmap.lookup_insert_of_ne _ same, ih, if_neg same]

theorem mem_textsOf : key ∈ textsOf rows ↔ key ∈ rows.map Prod.fst := by
  induction rows with
  | nil => simp [textsOf, Finmap.notMem_empty]
  | cons row rest ih => rw [textsOf, Finmap.mem_insert, ih, List.map_cons, List.mem_cons]

theorem textsOf_setRow (key text : String) (rows : List (String × String)) :
    textsOf (setRow key text rows) = (textsOf rows).insert key text := by
  apply Finmap.ext_lookup
  intro other
  rw [lookup_textsOf, lookup_setRow]
  by_cases same : other = key
  · subst same
    rw [if_pos rfl, Finmap.lookup_insert]
  · rw [if_neg same, Finmap.lookup_insert_of_ne _ same, lookup_textsOf]

theorem lookup_rowsWithout (key other : String) (rows : List (String × String)) :
    (rowsWithout key rows).lookup other = if other = key then none else rows.lookup other := by
  induction rows with
  | nil => simp [rowsWithout]
  | cons row rest ih =>
      rcases row with ⟨first, text⟩
      rw [rowsWithout_cons, lookup_cons]
      by_cases same : first = key
      · subst same
        rw [if_pos rfl, ih]
        split <;> rfl
      · rw [if_neg same, lookup_cons, ih]
        by_cases found : other = first
        · subst found
          rw [if_pos rfl, if_neg same, if_pos rfl]
        · rw [if_neg found, if_neg found]

theorem textsOf_rowsWithout (key : String) (rows : List (String × String)) :
    textsOf (rowsWithout key rows) = (textsOf rows).erase key := by
  apply Finmap.ext_lookup
  intro other
  rw [lookup_textsOf, lookup_rowsWithout]
  by_cases same : other = key
  · subst same
    rw [if_pos rfl, Finmap.lookup_erase]
  · rw [if_neg same, Finmap.lookup_erase_ne same, lookup_textsOf]

/-! ## Tables and the order of their keys -/

theorem keys_setRow (key text : String) (rows : List (String × String)) :
    (setRow key text rows).map Prod.fst =
      if key ∈ rows.map Prod.fst then rows.map Prod.fst else rows.map Prod.fst ++ [key] := by
  induction rows with
  | nil => rfl
  | cons row rest ih =>
      rw [setRow]
      by_cases same : row.1 = key
      · simp [same]
      · rw [if_neg same, List.map_cons, ih]
        simp only [List.map_cons, List.mem_cons, Ne.symm same, false_or]
        split <;> rfl

/-- An update of a key leaves the rows of all other keys alone. -/
theorem rowsWithout_setRow (key text : String) (rows : List (String × String)) :
    rowsWithout key (setRow key text rows) = rowsWithout key rows := by
  induction rows with
  | nil => simp [setRow, rowsWithout]
  | cons row rest ih =>
      rw [setRow, rowsWithout_cons]
      by_cases same : row.1 = key
      · rw [if_pos same, if_pos same, rowsWithout_cons, if_pos rfl]
      · rw [if_neg same, if_neg same, rowsWithout_cons, if_neg same, ih]

theorem keys_rowsWithout (key : String) (rows : List (String × String)) :
    (rowsWithout key rows).map Prod.fst = (rows.map Prod.fst).filter (· ≠ key) := by
  rw [rowsWithout, List.filter_map]
  rfl

theorem rowsWithout_eq_self (absent : key ∉ rows.map Prod.fst) : rowsWithout key rows = rows := by
  apply List.filter_eq_self.mpr
  intro row member
  have other : row.1 ≠ key := fun same => absent (same ▸ List.mem_map_of_mem member)
  simpa using other

/-- A table has fewer rows without a key just if it has one under the key. -/
theorem length_rowsWithout_eq_iff :
    (rowsWithout key rows).length = rows.length ↔ key ∉ rows.map Prod.fst := by
  constructor
  · intro sameLength present
    rcases List.mem_map.mp present with ⟨row, member, rfl⟩
    have kept := List.length_filter_eq_length_iff.mp sameLength row member
    simp at kept
  · intro absent
    rw [rowsWithout_eq_self absent]

/-! ## One step -/

theorem removeRows_of_mem (present : key ∈ metadata.keys) :
    metadata.removeRows key = (.ok (), { metadata with
      additionalMetadata := rowsWithout key metadata.additionalMetadata }) := by
  -- What is compared is how many rows there are, so one row under the key must make them fewer.
  have fewer := mt length_rowsWithout_eq_iff.mp (not_not_intro present)
  exact if_neg fewer

/-- Where there is no row under the key, taking rows out changes nothing, and this is reported. -/
theorem removeRows_of_notMem (absent : key ∉ metadata.keys) :
    metadata.removeRows key =
      (.error (.missingExtensionField .tokenMetadata key), metadata) := by
  have same := rowsWithout_eq_self absent
  calc
    metadata.removeRows key =
        (.error (.missingExtensionField .tokenMetadata key), { metadata with
          additionalMetadata := rowsWithout key metadata.additionalMetadata }) :=
      if_pos (congrArg List.length same)
    _ = (.error (.missingExtensionField .tokenMetadata key), metadata) := by rw [same]

theorem perform_remove (metadata : TokenMetadata) (key : String) :
    metadata.perform (.remove key) =
      if key ∈ metadata.keys then
        (.done, { metadata with
          additionalMetadata := rowsWithout key metadata.additionalMetadata })
      else (.refused (.missingExtensionField .tokenMetadata key), metadata) := by
  rw [perform]
  split_ifs with present
  · rw [removeRows_of_mem present]
  · rw [removeRows_of_notMem present]

/-- What readers see of a step on metadata is the step on what they see. -/
theorem view_perform (metadata : TokenMetadata) (step : Step) :
    metadata.view.perform step =
      ((metadata.perform step).1, (metadata.perform step).2.view) := by
  cases step with
  | update field text =>
      cases field with
      | name | symbol | uri => rfl
      | key key => simp [perform, update, view, View.perform, textsOf_setRow]
  | remove key =>
      have seen : key ∈ metadata.view.texts ↔ key ∈ metadata.keys := mem_textsOf
      rw [View.perform, perform_remove]
      by_cases present : key ∈ metadata.keys
      · rw [if_pos present, if_pos (seen.mpr present)]
        simp [view, textsOf_rowsWithout]
      · rw [if_neg present, if_neg (mt seen.mp present)]
  | get key => simp [perform, View.perform, view, get?, lookup_textsOf]

/-- What readers see of a run is the run on what they see. -/
theorem view_run (metadata : TokenMetadata) (steps : List Step) :
    metadata.view.run steps = ((metadata.run steps).1, (metadata.run steps).2.view) := by
  induction steps generalizing metadata with
  | nil => rfl
  | cons step steps ih =>
      have rest := ih (metadata.perform step).2
      simp only [View.run, run] at rest ⊢
      simp only [runSteps, view_perform, rest]

/-- No step changes who may update the metadata, or the mint that it describes. -/
theorem identity_perform (metadata : TokenMetadata) (step : Step) :
    (metadata.perform step).2.updateAuthority = metadata.updateAuthority ∧
      (metadata.perform step).2.mint = metadata.mint := by
  cases step with
  | update field text => cases field <;> exact ⟨rfl, rfl⟩
  | remove key =>
      rw [perform_remove]
      split <;> exact ⟨rfl, rfl⟩
  | get key => exact ⟨rfl, rfl⟩

theorem keys_update_key (metadata : TokenMetadata) (key text : String) :
    (metadata.update (.key key) text).keys =
      if key ∈ metadata.keys then metadata.keys else metadata.keys ++ [key] :=
  keys_setRow key text metadata.additionalMetadata

/-- A step keeps keys apart from each other. -/
theorem nodup_perform (step : Step) (nodup : metadata.keys.Nodup) :
    (metadata.perform step).2.keys.Nodup := by
  cases step with
  | update field text =>
      cases field with
      | name | symbol | uri => exact nodup
      | key key =>
          rw [perform, keys_update_key]
          split
          · exact nodup
          · next absent => exact List.nodup_append.mpr ⟨nodup, List.nodup_singleton key, by grind⟩
  | remove key =>
      rw [perform_remove]
      split
      · simp only [keys, keys_rowsWithout]
        exact nodup.filter _
      · exact nodup
  | get key => exact nodup

/-! ## Runs -/

theorem identity_run (metadata : TokenMetadata) (steps : List Step) :
    (metadata.run steps).2.updateAuthority = metadata.updateAuthority ∧
      (metadata.run steps).2.mint = metadata.mint := by
  apply run_induction fun reached =>
    reached.updateAuthority = metadata.updateAuthority ∧ reached.mint = metadata.mint
  · intro reached step same
    rcases identity_perform reached step with ⟨authority, mint⟩
    exact ⟨authority.trans same.1, mint.trans same.2⟩
  · exact ⟨rfl, rfl⟩

theorem nodup_run (steps : List Step) (nodup : metadata.keys.Nodup) :
    (metadata.run steps).2.keys.Nodup :=
  run_induction (fun reached => reached.keys.Nodup) (fun _ => nodup_perform) nodup steps

/-- Metadata behaves as three texts and a finite map.  Through any run of updates, removals and
look-ups it gives the answers of the map and comes to stand for the map that the run makes.  Its
authority and mint stay, and so do keys that are all different.

Wherever the run has come to, an update of a key puts it at the end of the keys if it is new, and
leaves the rows of other keys as they are.  A removal is refused just for a key that is not there,
and then changes nothing; otherwise it takes out all rows of the key, and no others. -/
theorem run_refines_map (metadata : TokenMetadata) (steps : List Step) :
    let reached := (metadata.run steps).2
    metadata.view.run steps = ((metadata.run steps).1, reached.view) ∧
    (reached.updateAuthority = metadata.updateAuthority ∧ reached.mint = metadata.mint) ∧
    (metadata.keys.Nodup → reached.keys.Nodup) ∧
    (∀ field text, (∀ key, field ≠ .key key) →
      (reached.update field text).additionalMetadata = reached.additionalMetadata) ∧
    (∀ key text,
      (reached.update (.key key) text).keys =
        (if key ∈ reached.keys then reached.keys else reached.keys ++ [key]) ∧
      rowsWithout key (reached.update (.key key) text).additionalMetadata =
        rowsWithout key reached.additionalMetadata) ∧
    (∀ key error edited, reached.removeRows key = (.error error, edited) ↔
      key ∉ reached.keys ∧ error = .missingExtensionField .tokenMetadata key ∧
        edited = reached) ∧
    (∀ key edited, reached.removeRows key = (.ok (), edited) →
      edited.additionalMetadata = rowsWithout key reached.additionalMetadata ∧
      edited.keys = reached.keys.filter (· ≠ key) ∧ edited.get? key = none) := by
  intro reached
  refine ⟨view_run metadata steps, identity_run metadata steps, nodup_run steps, ?text, ?key,
    ?refused, ?removed⟩
  case text =>
    intro field text other
    cases field with
    | name | symbol | uri => rfl
    | key key => exact absurd rfl (other key)
  case key =>
    intro key text
    exact ⟨keys_update_key reached key text, rowsWithout_setRow key text _⟩
  case refused =>
    intro key error edited
    by_cases present : key ∈ reached.keys
    · simp [removeRows_of_mem present, present]
    · simp [removeRows_of_notMem present, present, eq_comm]
  case removed =>
    intro key edited removed
    by_cases present : key ∈ reached.keys
    · rw [removeRows_of_mem present] at removed
      cases removed
      refine ⟨rfl, keys_rowsWithout key _, ?_⟩
      rw [get?, lookup_rowsWithout, if_pos rfl]
    · rw [removeRows_of_notMem present] at removed
      cases removed

/-- Metadata with two texts for its tier. -/
def doubledTier : TokenMetadata where
  updateAuthority := none
  mint := .zero .address
  name := "Token"
  symbol := "T"
  uri := ""
  additionalMetadata := [("tier", "gold"), ("size", "xl"), ("tier", "tin")]

/-- Taking out a tier that was updated takes out both, and then there is none to be taken out. -/
theorem run_doubledTier :
    let reached := (doubledTier.run [.update (.key "tier") "iron", .remove "tier"]).2
    reached.get? "tier" = none ∧ reached.keys = ["size"] ∧
      reached.removeRows "tier" =
        (.error (.missingExtensionField .tokenMetadata "tier"), reached) ∧
      (reached.update .name "New").additionalMetadata = [("size", "xl")] ∧
      (reached.run [.update (.key "tier") "gold"]).2.keys.Nodup := by
  intro reached
  have keys : reached.keys = ["size"] := by decide
  rcases run_refines_map doubledTier [.update (.key "tier") "iron"] with
    ⟨-, -, -, -, -, -, removed⟩
  rcases run_refines_map doubledTier [.update (.key "tier") "iron", .remove "tier"] with
    ⟨-, -, -, text, -, refused, -⟩
  rcases run_refines_map reached [.update (.key "tier") "gold"] with ⟨-, -, nodup, -⟩
  refine ⟨(removed "tier" reached (by decide)).2.2, keys, ?_, ?_, nodup (by decide)⟩
  · exact (refused "tier" _ _).mpr ⟨by decide, rfl, rfl⟩
  · exact (text .name "New" (by simp)).trans (by decide)

end TokenMetadata

end TokenAccounts
