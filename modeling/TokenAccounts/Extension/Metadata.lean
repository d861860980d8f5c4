import TokenAccounts.Field.Layout

/-!
# Token metadata

Names for people, and a table of further texts by key.  Main statement: a row that is set is found
under its key, and every other key keeps what is found under it.
-/

namespace TokenAccounts

/-- What a token is called, and where more about it is found. -/
structure TokenMetadata where
  updateAuthority : Option Address
  /-- The mint that this describes, so that it cannot be passed off as that of another. -/
  mint : Address
  name : String
  symbol : String
  uri : String
  /-- Further texts, each with its key. -/
  additionalMetadata : List (String × String)
  deriving DecidableEq, Repr

instance : Record TokenMetadata where
  layout := [
    .plain "updateAuthority" (.nonzero .address),
    .plain "mint" (.blob .address),
    .plain "name" .text,
    .plain "symbol" .text,
    .plain "uri" .text,
    .plain "additionalMetadata" .pairs]
  toValues record := (record.updateAuthority, record.mint, record.name, record.symbol,
    record.uri, record.additionalMetadata, ())
  ofValues := fun (updateAuthority, mint, name, symbol, uri, additionalMetadata, ()) =>
    ⟨updateAuthority, mint, name, symbol, uri, additionalMetadata⟩
  ofValues_toValues _ := rfl
  toValues_ofValues _ := rfl

/-- Which text of the metadata is meant. -/
inductive MetadataField where
  | name
  | symbol
  | uri
  | key (key : String)
  deriving DecidableEq, Repr

namespace TokenMetadata

/-- Replace the first text under a key, or put a new row at the end if the key is not there. -/
def setRow (key text : String) : List (String × String) → List (String × String)
  | [] => [(key, text)]
  | row :: rest => if row.1 = key then (key, text) :: rest else row :: setRow key text rest

/-- Set one text. -/
def update (metadata : TokenMetadata) (field : MetadataField) (text : String) : TokenMetadata :=
  match field with
  | .name => { metadata with name := text }
  | .symbol => { metadata with symbol := text }
  | .uri => { metadata with uri := text }
  | .key key =>
      { metadata with additionalMetadata := setRow key text metadata.additionalMetadata }

/-- The keys of the table, in order. -/
def keys (metadata : TokenMetadata) : List String := metadata.additionalMetadata.map Prod.fst

/-- Take out every row under a key.  It is an error if there are as many rows as before. -/
def removeRows (metadata : TokenMetadata) (key : String) : Except Error Unit × TokenMetadata :=
  let rows := metadata.additionalMetadata.filter fun row => row.1 ≠ key
  let edited := { metadata with additionalMetadata := rows }
  if rows.length = metadata.additionalMetadata.length then
    (.error (.missingExtensionField .tokenMetadata key), edited)
  else (.ok (), edited)

/-- Metadata without the rows under a key, of which there must be one. -/
def removeKey (metadata : TokenMetadata) (key : String) : Except Error TokenMetadata :=
  let (outcome, edited) := metadata.removeRows key
  outcome.map fun _ => edited

/-- The first text under a key. -/
def get? (metadata : TokenMetadata) (key : String) : Option String :=
  metadata.additionalMetadata.lookup key

theorem lookup_setRow (key text other : String) (rows : List (String × String)) :
    (setRow key text rows).lookup other = if other = key then some text else rows.lookup other := by
  induction rows with
  | nil => grind [setRow]
  | cons row rest ih =>
      obtain ⟨first, found⟩ := row
      grind [setRow]

end TokenMetadata

end TokenAccounts
