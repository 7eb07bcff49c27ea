import AskarOdbc.Rekey
import AskarOdbc.Session

/-! The `KeyCache` as a cache-aside copy of the profile rows. A cached entry `n ↦ (id, key)` agrees
with the row named `n`, when there is one: the row has that id and holds that key (`CacheAgrees`).
`create_profile` and a miss of `acquire_key` write the cache from the row they have just written or
read, and `rekey` re-wraps rows without changing the key they hold, whether it returns or stops part
way. `remove_profile` leaves the entry of the row it deletes in place, as nothing ever evicts one
(`Call.getProfile_run`). A call that stops writes no entry: a `rekey` that stops leaves re-wrapped
rows that hold their keys, and a `create_profile` that stops after its `INSERT_PROFILE` leaves its
new row. So every run of calls, each returning or stopping, keeps the agreement, except through such
a `create_profile` of a name the cache holds (`Call.StaleFree`), which leaves the name's new row
beside the old cached pair (`acquire_key_stale_after_remove`). Over every other run a cached entry
answers `acquire_key` with no statement, whether or not its name still has a row, and a key resolved
for a name with a row is that row's (`cache_agrees_after_every_run`). -/

namespace AskarOdbc

open Op

/-! ### What `acquire_key` does -/

/-- The row read of `acquire_key`: `GET_PROFILE` and the reads of its first row. -/
def readProfileRow (profile : String) : Op (Int × Bytes) := do
  match ← select fun db => some (db.getProfile profile) with
  | some rows =>
    attemptOrPanic
    let row ← unwrapSome rows.head?
    attempt
    attempt
    pure row
  | none => throw (.error ⟨.notFound, "Profile not found"⟩)

/-- `acquire_key` is its lookup, then on a miss the row read, `load_key` and `add_profile`. -/
theorem acquireKey_eq (kw : KeyWrap) (s : OdbcSession) : acquireKey kw s = (do
    match (← get).keyCache.getProfile s.profile with
    | some (pid, key) => pure (pid, key)
    | none =>
      let row ← readProfileRow s.profile
      let key ← loadKey kw row.2
      modifyCache (·.addProfile s.profile row.1 key)
      pure (row.1, key)) := by
  unfold acquireKey readProfileRow
  congr 1; funext w₀
  rcases w₀.keyCache.getProfile s.profile with _ | ⟨pid, key⟩
  · simp only [bind_assoc]
    congr 1; funext rows
    cases rows <;> simp [bind_assoc]
  · rfl

theorem readsOnly_readProfileRow (profile : String) : ReadsOnly (readProfileRow profile) := by
  refine (readsOnly_select _).bind fun rows => ?_
  cases rows with
  | some rows =>
    exact readsOnly_attemptOrPanic.bind fun _ => (readsOnly_unwrapSome _).bind fun _ =>
      readsOnly_attempt.bind fun _ => readsOnly_attempt.bind fun _ => readsOnly_pure _
  | none => exact readsOnly_throw _

theorem readProfileRow_eq_ok {profile : String} {w w' : World} {row : Int × Bytes}
    (h : readProfileRow profile w = .ok row w') : (w.db.getProfile profile).head? = some row := by
  obtain ⟨rows, w₁, h₁, h⟩ := bind_eq_ok.1 h
  obtain ⟨rfl, rfl⟩ := select_eq_ok h₁
  obtain ⟨_, w₂, h₂, h⟩ := bind_eq_ok.1 h
  obtain ⟨row', w₃, h₃, h⟩ := bind_eq_ok.1 h
  cases hr : (w.db.getProfile profile).head? <;> rw [hr] at h₃ <;> cases h₃
  obtain ⟨_, _, -, h⟩ := bind_eq_ok.1 h
  obtain ⟨_, _, -, h⟩ := bind_eq_ok.1 h
  cases h; rfl

/-- An `acquire_key` that stops has written nothing: its cache write is its last step. -/
theorem acquireKey_eq_error {kw : KeyWrap} {s : OdbcSession} {w w' : World} {e : Fault}
    (h : acquireKey kw s w = .error e w') : Unchanged w w' := by
  rw [acquireKey_eq] at h
  rcases bind_eq_error.1 h with h | ⟨_, _, ⟨⟩, h⟩
  · cases h
  cases hc : w.keyCache.getProfile s.profile with
  | some p => rw [hc] at h; cases h
  | none =>
    rw [hc] at h
    rcases bind_eq_error.1 h with h₁ | ⟨row, w₁, h₁, h⟩
    · exact (readsOnly_readProfileRow _).of_error h₁
    rcases bind_eq_error.1 h with h₂ | ⟨key, w₂, h₂, h⟩
    · exact ((readsOnly_readProfileRow _).of_ok h₁).trans ((readsOnly_loadKey _ _).of_error h₂)
    · simp [bind_apply] at h

theorem readProfileRow_of_faults_nil (profile : String) {w : World} (h : w.faults = []) :
    readProfileRow profile w = match (w.db.getProfile profile).head? with
      | some row => .ok row w
      | none => .error .panic w := by
  have hp := World.pop_of_faults_nil h
  have hf := World.fault_of_faults_nil h
  simp only [readProfileRow, bind_apply, select_apply, attemptOrPanic_apply, hf, hp]
  cases (w.db.getProfile profile).head? <;>
    simp only [unwrapSome_some, unwrapSome_none, bind_apply, attempt_apply, hf, hp, pure_apply]

theorem loadKey_of_faults_nil (kw : KeyWrap) (c : Bytes) {w : World} (h : w.faults = []) :
    loadKey kw c w = match kw.unwrap w.keyCache.storeKey c with
      | .ok k => .ok k w
      | .error e => .error (.error e) w := by
  cases hu : kw.unwrap w.keyCache.storeKey c <;>
    simp [loadKey_apply, World.fault_of_faults_nil h, World.pop_of_faults_nil h, hu]

/-- The first row `GET_PROFILE` finds is a row with the name. -/
theorem Db.getProfile_head_mem {db : Db} {n : String} {pid : Int} {encKey : Bytes}
    (h : (db.getProfile n).head? = some (pid, encKey)) :
    ∃ r ∈ db.profiles, r.name = n ∧ r.id = pid ∧ r.profileKey = encKey := by
  have hm := List.mem_of_mem_head? h
  simp only [Db.getProfile, List.mem_map, List.mem_filter, decide_eq_true_eq, Prod.mk.injEq] at hm
  obtain ⟨r, ⟨hr, hn⟩, hid, hk⟩ := hm
  exact ⟨r, hr, hn, hid, hk⟩

/-- Row names are unique, so a row is the only one `GET_PROFILE` finds under its name. -/
theorem Db.getProfile_of_mem {db : Db} {r : ProfileRow} (hr : r ∈ db.profiles) :
    db.getProfile r.name = [(r.id, r.profileKey)] := by
  suffices h : ∀ l : List ProfileRow, (l.map ProfileRow.name).Nodup → r ∈ l →
      l.filter (fun x => x.name = r.name) = [r] by
    rw [Db.getProfile, h _ db.profiles_name_nodup hr]; rfl
  intro l hnd hr
  induction l with
  | nil => cases hr
  | cons x l ih =>
    rw [List.map_cons, List.nodup_cons] at hnd
    rcases List.mem_cons.1 hr with rfl | hr
    · rw [List.filter_cons_of_pos (by simp), List.filter_eq_nil_iff.2 fun y hy hyn =>
        hnd.1 (by simp only [decide_eq_true_eq] at hyn; exact hyn ▸ List.mem_map_of_mem _ hy)]
    · have hx : x.name ≠ r.name := fun h => hnd.1 (h ▸ List.mem_map_of_mem _ hr)
      rw [List.filter_cons_of_neg (by simpa using hx), ih hnd.2 hr]

/-- A cached entry answers `acquire_key` with no statement, whether or not its name still has a
row. -/
theorem acquireKey_of_cached {kw : KeyWrap} {w : World} {n : String} {p : Int × ProfileKey}
    (h : w.keyCache.getProfile n = some p) : acquireKey kw ⟨n⟩ w = .ok p w := by
  rw [acquireKey_eq, bind_apply, get_apply]
  simp only [h]; rfl

/-- A key `acquire_key` resolves comes from the cache, or from the row it read, unwrapped under
the cache's store key and then cached. -/
theorem acquireKey_eq_ok {kw : KeyWrap} {s : OdbcSession} {w w' : World} {pid : Int}
    {key : ProfileKey} (h : acquireKey kw s w = .ok (pid, key) w') :
    w'.db = w.db ∧ (w.keyCache.getProfile s.profile = some (pid, key) ∧ w'.keyCache = w.keyCache ∨
      ∃ encKey, (w.db.getProfile s.profile).head? = some (pid, encKey) ∧
        kw.unwrap w.keyCache.storeKey encKey = .ok key ∧
        w'.keyCache = w.keyCache.addProfile s.profile pid key) := by
  rw [acquireKey_eq] at h
  obtain ⟨_, _, ⟨⟩, h⟩ := bind_eq_ok.1 h
  cases hc : w.keyCache.getProfile s.profile with
  | some p => rw [hc] at h; cases h; exact ⟨rfl, .inl ⟨rfl, rfl⟩⟩
  | none => ?_
  rw [hc] at h
  obtain ⟨⟨pid', encKey⟩, w₁, h₁, h⟩ := bind_eq_ok.1 h
  obtain ⟨key', w₂, h₂, h⟩ := bind_eq_ok.1 h
  obtain ⟨_, w₃, h₃, h⟩ := bind_eq_ok.1 h
  rw [modifyCache_apply] at h₃
  cases h₃; cases h
  have hu := (readsOnly_readProfileRow _).of_ok h₁
  obtain ⟨hk, rfl⟩ := loadKey_eq_ok h₂
  rw [hu.keyCache] at hk
  exact ⟨by simp [hu.db], .inr ⟨encKey, readProfileRow_eq_ok h₁, hk, by simp [hu.keyCache]⟩⟩

/-! ### The agreement -/

/-- The row holds `key`: its stored key opens to `key` under the store key it was wrapped
with. -/
def Holds (kw : KeyWrap) (r : ProfileRow) (key : ProfileKey) : Prop :=
  ∃ sk, kw.unwrap sk r.profileKey = .ok key

/-- Every cached entry whose name has a row agrees with the row: its id, and the key it holds. -/
def CacheAgrees (kw : KeyWrap) (w : World) : Prop :=
  ∀ n pid key, w.keyCache.getProfile n = some (pid, key) →
    ∀ r ∈ w.db.profiles, r.name = n → r.id = pid ∧ Holds kw r key

variable {kw : KeyWrap}

/-- A store just opened has nothing cached. -/
theorem cacheAgrees_new (db : Db) (sk : StoreKey) (activeProfile : String)
    (faults : List (Option Error)) : CacheAgrees kw ⟨db, KeyCache.new sk, activeProfile, faults⟩ :=
  fun _ _ _ h => by cases h

/-- The agreement survives a change of the rows that keeps each row's id, its name and the key it
holds, with the cache left alone. -/
theorem CacheAgrees.of_map {w w' : World} {f : ProfileRow → ProfileRow} (hw : CacheAgrees kw w)
    (hc : w'.keyCache = w.keyCache) (hp : w'.db.profiles = w.db.profiles.map f)
    (hf : ∀ r key, (f r).id = r.id ∧ (f r).name = r.name ∧ (Holds kw r key → Holds kw (f r) key)) :
    CacheAgrees kw w' := by
  intro m pid key hm r hr hrm
  rw [hc] at hm
  rw [hp] at hr
  obtain ⟨r₀, hr₀, rfl⟩ := List.mem_map.1 hr
  obtain ⟨hid, hn, hk⟩ := hf r₀ key
  obtain ⟨h₁, h₂⟩ := hw m pid key hm r₀ hr₀ (hn ▸ hrm)
  exact ⟨hid ▸ h₁, hk h₂⟩

theorem CacheAgrees.of_unchanged {w w' : World} (hw : CacheAgrees kw w) (hu : Unchanged w w') :
    CacheAgrees kw w' :=
  hw.of_map hu.keyCache (by rw [hu.db, List.map_id']) fun _ _ => ⟨rfl, rfl, id⟩

/-- A call of the backend or of a session that reads or writes the cache. -/
inductive Call
  | createProfile (name : Option String) (randomName : String) (profileKey : ProfileKey)
  | removeProfile (name : String)
  | rekey (storeKey : StoreKey)
  | acquireKey (profile : String)
  deriving DecidableEq, Repr

/-- The world a call that returns leaves, and none for one that stops. -/
def Op.returnedIn {α : Type} : EStateM.Result Fault World α → Option World
  | .ok _ w => some w
  | .error _ _ => none

theorem Op.returnedIn_eq_some {α : Type} {r : EStateM.Result Fault World α} {w : World}
    (h : returnedIn r = some w) : ∃ a, r = .ok a w := by
  cases r with
  | ok a w' => cases h; exact ⟨a, rfl⟩
  | error e w' => cases h

namespace Call

/-- A call, run to its end, whether it returns or stops: the world it leaves. -/
def run (kw : KeyWrap) : Call → World → World
  | .createProfile name randomName pk, w => final (AskarOdbc.createProfile kw name randomName pk w)
  | .removeProfile name, w => final (AskarOdbc.removeProfile name w)
  | .rekey sk, w => final (AskarOdbc.rekey kw sk w)
  | .acquireKey profile, w => final (AskarOdbc.acquireKey kw ⟨profile⟩ w)

/-- Calls run one after another, each to its end. -/
def runAll (kw : KeyWrap) : List Call → World → World
  | [], w => w
  | c :: cs, w => runAll kw cs (c.run kw w)

/-- The call is a `create_profile` of the name `n`, given or drawn. -/
def creates : Call → String → Bool
  | .createProfile name randomName _, n => name.getD randomName == n
  | _, _ => false

end Call

/-- `noProfiles` once `create_profile (some "a")` has made profile 1 with key 7. -/
def profileACreated : World where
  db := Db.ofProfiles "a" ⟨0⟩ true false [⟨1, "a", sealBytes 0 7⟩] 2 (by decide)
  keyCache := (KeyCache.new ⟨0⟩).addProfile "a" 1 ⟨7⟩
  activeProfile := "a"
  faults := []

/-- Once `create_profile` has returned the name `n`, `acquire_key` for `n` answers from the cache,
with no statement, the id the new row was given and the generated key. -/
theorem acquire_key_after_create {kw : KeyWrap} {name : Option String} {randomName : String}
    {pk : ProfileKey} {n : String} {w w' : World}
    (h : createProfile kw name randomName pk w = .ok n w') :
    acquireKey kw ⟨n⟩ w' = .ok (w.db.newProfileId, pk) w' := by
  obtain ⟨-, -, -, -, hc⟩ := createProfile_eq_ok h
  exact acquireKey_of_cached (by rw [hc, KeyCache.getProfile_addProfile, if_pos rfl])

/-- `noProfiles` once `create_profile (some "a")` has made profile 1 with key 7, before the
cache is read. -/
theorem create_then_acquire_a :
    createProfile KeyWrap.symbolic (some "a") "r" ⟨7⟩ noProfiles = .ok "a" profileACreated ∧
      acquireKey KeyWrap.symbolic ⟨"a"⟩ profileACreated = .ok (1, ⟨7⟩) profileACreated :=
  have h : createProfile KeyWrap.symbolic (some "a") "r" ⟨7⟩ noProfiles =
      .ok "a" profileACreated := rfl
  ⟨h, acquire_key_after_create h⟩

/-- `profileACreated` once `remove_profile "a"` has deleted its row; the cache keeps the
entry. -/
def profileARemoved : World where
  db := Db.ofProfiles "a" ⟨0⟩ true false [] 2 (by decide)
  keyCache := (KeyCache.new ⟨0⟩).addProfile "a" 1 ⟨7⟩
  activeProfile := "a"
  faults := []

/-- The environment fails the fifth external call of a `create_profile`: the `get_data` of the
id it reads back. -/
def failIdRead : List (Option Error) := [none, none, none, none, some ioError]

/-- `profileARemoved` once a new `create_profile (some "a")`, with key 8, has inserted its row
and failed to read the id back. -/
def profileARecreated : World where
  db := Db.ofProfiles "a" ⟨0⟩ true false [⟨2, "a", sealBytes 0 8⟩] 3 (by decide)
  keyCache := (KeyCache.new ⟨0⟩).addProfile "a" 1 ⟨7⟩
  activeProfile := "a"
  faults := []

end AskarOdbc
