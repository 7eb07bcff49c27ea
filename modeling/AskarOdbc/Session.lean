import AskarOdbc.Backend

/-! `OdbcSession`: the resolution of the session's profile key through the shared `KeyCache`
(`acquire_key`, a cache-aside lookup), and `update`, which writes an entry's encrypted columns and
its tags with one statement at a time, or deletes the entry. `update` resolves the key and then
runs `writeEntry` (`Insert` and `Replace`) or `deleteEntry` (`Remove`), the two halves of its
`match`. The category, name and value are the bytes `prepare_input` copies; `expiryTimestamp`
is `expiry_timestamp` followed by the formatting the code applies, at the instant the call reads
the clock, which each call reads afresh (`UpdateCall.now`). The remaining methods are the stubs of
the source. -/

namespace AskarOdbc

open Op

/-- `OdbcSession::acquire_key`. A `SELECT` always yields a cursor, so the `else` branch, which
answers `NotFound`, is taken by no statement the code issues. -/
def acquireKey (kw : KeyWrap) (session : OdbcSession) : Op (Int × ProfileKey) := do
  -- Check to see whether the key already exists in our cache...
  match (← get).keyCache.getProfile session.profile with
  | some (pid, key) => pure (pid, key)
  | none =>
    -- The key isn't already cached and so we need to try and load the key from the database.
    match ← select fun db => some (db.getProfile session.profile) with
    | some rows =>
      -- `next_row().unwrap().unwrap()`, `get_data(1, &mut pid)?`, `get_binary(2, ..)?`.
      attemptOrPanic
      let (pid, encKey) ← unwrapSome rows.head?
      attempt
      attempt
      -- Load and cache the key.
      let key ← loadKey kw encKey
      modifyCache (·.addProfile session.profile pid key)
      pure (pid, key)
    | none => throw (.error ⟨.notFound, "Profile not found"⟩)

/-- `EntryOperation`. -/
inductive EntryOperation
  | insert
  | replace
  | remove
  deriving DecidableEq, Repr

/-- The `for tag in tags` loop of `update`: one `INSERT_TAG` per tag, `plaintext` as `i16`. -/
def insertTags (itemId : Int) : List EncEntryTag → Op Unit
  | [] => pure ()
  | tag :: rest => do
    execute (·.insertTag itemId tag.name tag.value (if tag.plaintext then 1 else 0))
    insertTags itemId rest

/-- The item statements of `update` ("Now we need to store the fields in the database"): the
insert of the entry, or its update followed by the `DELETE_TAG`. -/
def storeItem (op : EntryOperation) (pid : Int) (kind : EntryKind)
    (encCategory encName encValue : Bytes) (expiryStr : String) : Op Unit :=
  if op = .insert then
    if expiryStr.isEmpty then
      execute (·.insertItem pid kind.toI16 encCategory encName encValue none)
    else
      execute (·.insertItem pid kind.toI16 encCategory encName encValue (some expiryStr))
  else do
    (if expiryStr.isEmpty then
      execute fun db => .ok (db.updateItem encValue none pid kind.toI16 encCategory encName)
    else
      execute fun db =>
        .ok (db.updateItem encValue (some expiryStr) pid kind.toI16 encCategory encName))
    -- We also want to delete all existing tags for this item.
    execute fun db => .ok (db.deleteTag pid)

section Update

variable (codec : EntryCodec) (expiryTimestamp : Int → Except Error String)

/-- The `Insert | Replace` branch of `OdbcSession::update`, once the key is resolved. -/
def writeEntry (op : EntryOperation) (pid : Int) (key : ProfileKey) (kind : EntryKind)
    (category name value : Bytes) (tags : Option (List EntryTag)) (expiryMs : Option Int) :
    Op Unit := do
  -- Encrypt the fields, offloaded.
  attempt
  let encCategory := codec.encryptCategory key category
  let encName := codec.encryptName key name
  let encValue := codec.encryptValue key category name value
  let encTags := tags.map (·.map (codec.encryptTag key))
  -- `preallocate().unwrap()`.
  attemptOrPanic
  -- Work out the expiry time.
  let expiryStr ← (match expiryMs with
    | none => pure ""
    | some ms => check (expiryTimestamp ms))
  -- Now we need to store the fields in the database.
  storeItem op pid kind encCategory encName encValue expiryStr
  -- Now we need to update the tags table.
  match encTags with
  | none => pure ()
  | some tags =>
    -- Retrieve the item identifier.
    let itemId ← selectFirstOrPanic (·.getItemId pid kind.toI16 encCategory encName)
    -- `prepare(INSERT_TAG).unwrap()`.
    attemptOrPanic
    insertTags itemId tags

/-- The `Remove` branch of `OdbcSession::update`, once the key is resolved. -/
def deleteEntry (pid : Int) (key : ProfileKey) (kind : EntryKind) (category name : Bytes) :
    Op Unit := do
  -- Create the encrypted category and name.
  attempt
  let encCategory := codec.encryptCategory key category
  let encName := codec.encryptName key name
  -- Issue the delete.  We don't return an error if the item doesn't currently exist.
  execute fun db => .ok (db.deleteItem pid kind.toI16 encCategory encName)

/-- `OdbcSession::update`. -/
def update (kw : KeyWrap) (session : OdbcSession) (kind : EntryKind) (operation : EntryOperation)
    (category name : Bytes) (value : Option Bytes) (tags : Option (List EntryTag))
    (expiryMs : Option Int) : Op Unit :=
  match operation with
  | .insert | .replace => do
    let (pid, key) ← acquireKey kw session
    writeEntry codec expiryTimestamp operation pid key kind category name (value.getD []) tags
      expiryMs
  | .remove => do
    let (pid, key) ← acquireKey kw session
    deleteEntry codec pid key kind category name

end Update

/-- `OdbcSession::count`, a stub of the source. -/
def count : Op Int := pure 5

/-- `OdbcSession::fetch`, a stub of the source. -/
def fetch : Op (Option Unit) := pure none

/-- `OdbcSession::fetch_all`, a stub of the source. -/
def fetchAll : Op Unit := throw (.error ⟨.unsupported, "mod::fetch_all()"⟩)

/-- `OdbcSession::remove_all`, a stub of the source. -/
def removeAll : Op Int := throw (.error ⟨.unsupported, "mod::remove_all()"⟩)

/-- `OdbcSession::ping`. -/
def ping : Op Unit := pure ()

end AskarOdbc
