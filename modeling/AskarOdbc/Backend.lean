import AskarOdbc.World

/-! `OdbcBackend`, the store: profile creation, listing and removal, the default profile, the
rekey of every profile key under a new store key, and the opening of sessions. Each definition
follows its function in `backend/odbc/mod.rs` statement by statement. What the code takes from
the environment (the random profile name and key, the store key that `method.resolve(pass_key)`
derives) is an argument, and every statement and offloaded task is an external call that the
environment may fail (`Op.attempt` where the code passes a failure up with `?`,
`Op.attemptOrPanic` where it unwraps). A connection from the pool is taken to be always given, as
spec section 6 describes the pool's checkout. -/

namespace AskarOdbc

open Op

/-- `OdbcBackend::create_profile`. `randomName` is what `random_profile_name` returns and
`profileKey` what `ProfileKey::new` generates. -/
def createProfile (kw : KeyWrap) (name : Option String) (randomName : String)
    (profileKey : ProfileKey) : Op String := do
  let name := name.getD randomName
  -- Create the profile key: the offloaded `ProfileKey::new` and `encode_profile_key`.
  let storeKey := (← get).keyCache.storeKey
  attempt
  let encKey := encodeProfileKey kw profileKey storeKey
  -- Store the profile name and key.
  execute (·.insertProfile name encKey)
  -- Retrieve the profile ID from the table.
  let pid ← selectFirstOrPanic (·.getProfileId name encKey)
  -- Add the details to the key cache.
  modifyCache (·.addProfile name pid profileKey)
  return name

/-- `OdbcBackend::get_active_profile`. -/
def getActiveProfile : Op String := return (← get).activeProfile

/-- `OdbcBackend::get_default_profile`. -/
def getDefaultProfile : Op String := selectFirstOrPanic fun db => [db.getDefaultProfile]

/-- `OdbcBackend::set_default_profile`. -/
def setDefaultProfile (profile : String) : Op Unit :=
  execute fun db => .ok (db.updateConfigProfile profile)

/-- `RowVec::new(10)`: the row set buffer of `list_profiles` holds ten rows. -/
def rowSetCapacity : Nat := 10

/-- `BlockCursor::fetch`: the next batch of at most `capacity` rows, and none once no row is
left. -/
def fetchBatch {α : Type} (capacity : Nat) (rows : List α) : Option (List α) :=
  if rows.isEmpty then none else some (rows.take capacity)

/-- `OdbcBackend::list_profiles`: one fetch into the row set buffer, and the names of the batch it
holds. -/
def listProfiles : Op (List String) := do
  match ← selectResult (·.getProfileNames) with
  | .error _ => throw (.error ⟨.unsupported, "Configuration data not found"⟩)
  | .ok names =>
    -- `bind_buffer(row_set_buffer).unwrap()` and `fetch().unwrap().unwrap()`.
    attemptOrPanic
    attemptOrPanic
    unwrapSome (fetchBatch rowSetCapacity names)

/-- `OdbcBackend::remove_profile`. -/
def removeProfile (name : String) : Op Bool := do
  -- Determine whether the profile currently exists.
  let count ← selectFirstOrPanic fun db => [db.getProfileCountForName name]
  if count > 0 then
    execute fun db => .ok (db.deleteProfile name)
    return true
  else
    return false

/-- `KeyCache::load_key`: the unwrapping under the cache's store key, offloaded. -/
def loadKey (kw : KeyWrap) (ciphertext : Bytes) : Op ProfileKey := do
  attempt
  check ((← get).keyCache.loadKey kw ciphertext)

theorem loadKey_apply (kw : KeyWrap) (c : Bytes) (w : World) : loadKey kw c w =
    match w.fault with
    | some e => .error (.error e) w.pop
    | none => match kw.unwrap w.keyCache.storeKey c with
      | .ok k => .ok k w.pop
      | .error e => .error (.error e) w.pop := by
  simp only [loadKey, bind_apply, attempt_apply]
  cases w.fault with
  | some e => rfl
  | none =>
    simp only [get_apply, World.pop_keyCache, KeyCache.loadKey]
    cases kw.unwrap _ c <;> rfl

theorem loadKey_eq_ok {kw : KeyWrap} {c : Bytes} {w w' : World} {k : ProfileKey}
    (h : loadKey kw c w = .ok k w') : kw.unwrap w.keyCache.storeKey c = .ok k ∧ w' = w.pop := by
  rw [loadKey_apply] at h
  cases hf : w.fault <;> rw [hf] at h
  · cases hu : kw.unwrap w.keyCache.storeKey c <;> rw [hu] at h <;> cases h
    exact ⟨rfl, rfl⟩
  · cases h

theorem readsOnly_loadKey (kw : KeyWrap) (c : Bytes) : ReadsOnly (loadKey kw c) :=
  readsOnly_attempt.bind fun _ => readsOnly_get.bind fun _ => readsOnly_check _

/-- `BTreeMap::insert` on a map held as a list sorted by key: a key in the map has its value
replaced. -/
def insertSorted (k : Int) (v : Bytes) :
    List (Int × Bytes) → List (Int × Bytes)
  | [] => [(k, v)]
  | (k', v') :: rest =>
    if k < k' then (k, v) :: (k', v') :: rest
    else if k = k' then (k, v) :: rest
    else (k', v') :: insertSorted k v rest

/-- The `while let` loop of `rekey` that reads the rows of `GET_PROFILES` into `upd_keys`. -/
def readProfiles :
    List (Int × Bytes) → List (Int × Bytes) → Op (List (Int × Bytes))
  | [], updKeys => do
    -- The `next_row()?` that finds no row.
    attempt
    return updKeys
  | (pid, encKey) :: rows, updKeys => do
    -- `next_row()?`, `get_data(1, &mut pid)?` and `get_binary(2, &mut enc_key).unwrap()`.
    attempt
    attempt
    attemptOrPanic
    readProfiles rows (insertSorted pid encKey updKeys)

/-- The `for` loop of `rekey`: each profile key, unwrapped through the cache, is wrapped under the
new store key and written back to its row. -/
def rekeyProfiles (kw : KeyWrap) (storeKey : StoreKey) : List (Int × Bytes) → Op Unit
  | [] => pure ()
  | (pid, key) :: rest => do
    let profileKey ← loadKey kw key
    -- The offloaded `encode_profile_key`.
    attempt
    let updKey := encodeProfileKey kw profileKey storeKey
    execute fun db => .ok (db.updateProfile updKey pid)
    rekeyProfiles kw storeKey rest

/-- `OdbcBackend::rekey`. `storeKey` is the key that `method.resolve(pass_key)` derives. -/
def rekey (kw : KeyWrap) (storeKey : StoreKey) : Op Unit := do
  -- The offloaded `method.resolve(pass_key)`.
  attempt
  -- Retrieve and temporarily store the current keys for each of the profiles.
  match ← selectResult (·.getProfiles) with
  | .error _ => throw (.error ⟨.unsupported, "Configuration data not found"⟩)
  | .ok rows =>
    let updKeys ← readProfiles rows []
    -- Iterate over the cached keys, updating the profile with the new key.
    rekeyProfiles kw storeKey updKeys
    -- We finally need to save the new store key.
    execute fun db => .ok (db.updateConfigKey storeKey)

/-- `OdbcSession`: the profile a session acts for. Its connection is one of the pool's, and its
cache is the backend's `KeyCache`, which the world holds. -/
structure OdbcSession where
  profile : String
  deriving DecidableEq, Repr

/-- `OdbcBackend::session`. -/
def session (profile : Option String) (transaction : Bool) : Op OdbcSession := do
  if transaction then
    throw (.error ⟨.unsupported, "The ODBC backend does not currently support transactions"⟩)
  return ⟨profile.getD (← get).activeProfile⟩

/-- `OdbcBackend::scan`, not yet written in the source. -/
def scan : Op Unit := throw (.error ⟨.unsupported, "mod::scan()"⟩)

/-- `OdbcBackend::close`. -/
def close : Op Unit := pure ()

end AskarOdbc
