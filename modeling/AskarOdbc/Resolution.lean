import AskarOdbc.CacheAside
import Mathlib.Logic.Relation

/-! Concurrent resolution of one profile. `acquire_key` takes four steps that other sessions'
steps can interleave with: the cache lookup, the row `SELECT`, the unwrapping of `load_key`, and
the `add_profile` under the cache's lock (`acquireStep`; run back to back they are
`acquireKey`, `acquireRun_four`). Any number of sessions resolve the same name `n` while other
calls run, each step of theirs leaving `n`'s row, `n`'s cache entry and the cache's store key as
they were (`KeepsProfile`: a `create_profile`, `remove_profile` or `acquire_key` of another name
does). From a store whose cache agrees with its rows, every session that returns has returned the
row's id and the key the row holds, and the cache then holds exactly that pair
(`concurrent_acquire_agrees`). -/

namespace AskarOdbc

open Op

/-! ### The steps of `acquire_key` -/

/-- Where an `acquire_key` call is. -/
inductive AcquireStage
  | lookup
  | reading
  | loading (pid : Int) (encKey : Bytes)
  | caching (pid : Int) (key : ProfileKey)
  | returned (pid : Int) (key : ProfileKey)
  | failed
  deriving DecidableEq, Repr

/-- The next step of an `acquire_key` call for `profile`. -/
def acquireStep (kw : KeyWrap) (profile : String) : AcquireStage → World → AcquireStage × World
  | .lookup, w => match w.keyCache.getProfile profile with
    | some (pid, key) => (.returned pid key, w)
    | none => (.reading, w)
  | .reading, w => match readProfileRow profile w with
    | .ok (pid, encKey) w' => (.loading pid encKey, w')
    | .error _ w' => (.failed, w')
  | .loading pid encKey, w => match loadKey kw encKey w with
    | .ok key w' => (.caching pid key, w')
    | .error _ w' => (.failed, w')
  | .caching pid key, w =>
    (.returned pid key, { w with keyCache := w.keyCache.addProfile profile pid key })
  | s, w => (s, w)

/-- `k` steps of one `acquire_key` call, with no other step between them. -/
def acquireRun (kw : KeyWrap) (profile : String) : Nat → AcquireStage → World → AcquireStage × World
  | 0, s, w => (s, w)
  | k + 1, s, w =>
    acquireRun kw profile k (acquireStep kw profile s w).1 (acquireStep kw profile s w).2

/-- Four steps back to back are the call. -/
theorem acquireRun_four (kw : KeyWrap) (profile : String) (w : World) :
    match acquireKey kw ⟨profile⟩ w with
    | .ok (pid, key) w' => acquireRun kw profile 4 .lookup w = (.returned pid key, w')
    | .error _ w' => acquireRun kw profile 4 .lookup w = (.failed, w') := by
  rw [acquireKey_eq, bind_apply, get_apply]
  dsimp only
  cases hc : w.keyCache.getProfile profile with
  | some p => obtain ⟨pid, key⟩ := p; simp [acquireRun, acquireStep, hc]
  | none =>
    cases h₁ : readProfileRow profile w with
    | error e w₁ => simp [acquireRun, acquireStep, hc, bind_apply, h₁]
    | ok row w₁ =>
      obtain ⟨pid, encKey⟩ := row
      cases h₂ : loadKey kw encKey w₁ with
      | error e w₂ => simp [acquireRun, acquireStep, hc, bind_apply, h₁, h₂]
      | ok key w₂ =>
        simp only [acquireRun, acquireStep, hc, bind_apply, h₁, h₂, modifyCache_apply, pure_apply]

/-! ### Sessions resolving one profile -/

/-- A step of another call that leaves the profile `n` alone: its rows, its cache entry, and the
cache's store key. -/
structure KeepsProfile (n : String) (w w' : World) : Prop where
  row : w'.db.getProfile n = w.db.getProfile n
  cached : w'.keyCache.getProfile n = w.keyCache.getProfile n
  storeKey : w'.keyCache.storeKey = w.keyCache.storeKey

/-- Sessions resolving one profile, and the world they share. -/
structure Resolving where
  world : World
  sessions : Nat → AcquireStage

theorem KeepsProfile.of_unchanged {n : String} {w w' : World} (h : Unchanged w w') :
    KeepsProfile n w w' :=
  ⟨by rw [h.db], by rw [h.keyCache], by rw [h.keyCache]⟩

theorem Db.getProfile_insertProfile_ne {db db' : Db} {m n : String} {k : Bytes}
    (h : db.insertProfile m k = .ok db') (hne : m ≠ n) : db'.getProfile n = db.getProfile n := by
  rw [Db.getProfile, Db.getProfile, (Db.insertProfile_eq_ok h).2.1, List.filter_append,
    List.filter_singleton]
  simp [hne]

theorem Db.getProfile_deleteProfile_ne (db : Db) {m n : String} (hne : m ≠ n) :
    (db.deleteProfile m).getProfile n = db.getProfile n := by
  simp only [Db.getProfile, Db.deleteProfile, List.filter_filter]
  congr 2; funext r
  by_cases h : r.name = n <;> simp [h, Ne.symm hne]

/-- A `create_profile`, `remove_profile` or `acquire_key` of another name, whether it returns or
stops, keeps the profile `n`. -/
theorem other_calls_keep_profile (kw : KeyWrap) (n : String) (w : World) :
    (∀ name randomName pk, name.getD randomName ≠ n →
      KeepsProfile n w (final (createProfile kw name randomName pk w))) ∧
    (∀ m, m ≠ n → KeepsProfile n w (final (removeProfile m w))) ∧
    (∀ m, m ≠ n → KeepsProfile n w (final (acquireKey kw ⟨m⟩ w))) := by
  refine ⟨fun name randomName pk hne => ?_, fun m hne => ?_, fun m hne => ?_⟩
  · cases h : createProfile kw name randomName pk w with
    | ok m w' =>
      obtain ⟨rfl, db, hdb, hdb', hc⟩ := createProfile_eq_ok h
      exact ⟨by rw [final, hdb', Db.getProfile_insertProfile_ne hdb hne],
        by simp [final, hc, Ne.symm hne], by simp [final, hc]⟩
    | error e w' =>
      obtain ⟨hc, hdb | hdb⟩ := createProfile_eq_error h
      · exact .of_unchanged ⟨hdb, hc⟩
      · exact ⟨by rw [final, Db.getProfile_insertProfile_ne hdb hne], by simp [final, hc],
          by simp [final, hc]⟩
  · cases h : removeProfile m w with
    | ok b w' =>
      obtain ⟨-, hc, hdb⟩ := removeProfile_eq_ok h
      refine ⟨?_, by simp [final, hc], by simp [final, hc]⟩
      rw [final, hdb]
      split
      · exact Db.getProfile_deleteProfile_ne _ hne
      · rfl
    | error e w' => exact .of_unchanged (removeProfile_eq_error h)
  · cases h : acquireKey kw ⟨m⟩ w with
    | ok p w' =>
      obtain ⟨pid, key⟩ := p
      obtain ⟨hdb, ⟨-, hc⟩ | ⟨-, -, -, hc⟩⟩ := acquireKey_eq_ok h
      · exact .of_unchanged ⟨hdb, hc⟩
      · exact ⟨by rw [final, hdb], by simp [final, hc, Ne.symm hne], by simp [final, hc]⟩
    | error e w' => exact .of_unchanged (acquireKey_eq_error h)

/-- Sessions that have taken no step yet. -/
def Resolving.start (w : World) : Resolving := ⟨w, fun _ => .lookup⟩

/-- A step of the `i`-th session, or of another call that keeps the profile `n`. -/
inductive Resolving.Step (kw : KeyWrap) (n : String) : Resolving → Resolving → Prop
  | session (c : Resolving) (i : Nat) : Resolving.Step kw n c
      ⟨(acquireStep kw n (c.sessions i) c.world).2,
        Function.update c.sessions i (acquireStep kw n (c.sessions i) c.world).1⟩
  | other (c : Resolving) (w' : World) (h : KeepsProfile n c.world w') :
      Resolving.Step kw n c ⟨w', c.sessions⟩

section Agreement

variable {kw : KeyWrap} {n : String} {r : ProfileRow}

/-- What a stage says of the row `r` it resolves. -/
def StageAgrees (kw : KeyWrap) (r : ProfileRow) : AcquireStage → Prop
  | .loading pid encKey => pid = r.id ∧ encKey = r.profileKey
  | .caching pid key => pid = r.id ∧ Holds kw r key
  | .returned pid key => pid = r.id ∧ Holds kw r key
  | _ => True

/-- The cache's entry for `n`, if any, is the id of `r` and a key `r` holds. -/
def EntryAgrees (kw : KeyWrap) (n : String) (r : ProfileRow) (c : KeyCache) : Prop :=
  ∀ pid key, c.getProfile n = some (pid, key) → pid = r.id ∧ Holds kw r key

/-- What one step of an `acquire_key` call for `n` leaves, for the row `r` named `n`. -/
structure StepKeeps (kw : KeyWrap) (n : String) (r : ProfileRow) (w : World)
    (p : AcquireStage × World) : Prop where
  db : p.2.db = w.db
  storeKey : p.2.keyCache.storeKey = w.keyCache.storeKey
  stage : StageAgrees kw r p.1
  entry : EntryAgrees kw n r p.2.keyCache
  filled : ∀ pid key, p.1 = .returned pid key → (p.2.keyCache.getProfile n).isSome
  kept : (w.keyCache.getProfile n).isSome → (p.2.keyCache.getProfile n).isSome

theorem StepKeeps.of_unchanged {w w' : World} {s : AcquireStage} (hu : Unchanged w w')
    (he : EntryAgrees kw n r w.keyCache) (hs : StageAgrees kw r s)
    (hr : ∀ pid key, s ≠ .returned pid key) : StepKeeps kw n r w (s, w') :=
  ⟨hu.db, by rw [hu.keyCache], hs, by rw [hu.keyCache]; exact he,
    fun pid key h => absurd h (hr pid key), by rw [hu.keyCache]; exact id⟩

/-- One step of a session keeps what the sessions agree on. -/
theorem acquireStep_keeps {w : World} {s : AcquireStage}
    (hrow : w.db.getProfile n = [(r.id, r.profileKey)]) (he : EntryAgrees kw n r w.keyCache)
    (hs : StageAgrees kw r s)
    (hf : ∀ pid key, s = .returned pid key → (w.keyCache.getProfile n).isSome) :
    StepKeeps kw n r w (acquireStep kw n s w) := by
  cases s with
  | lookup =>
    cases hc : w.keyCache.getProfile n with
    | some p =>
      obtain ⟨pid, key⟩ := p
      simp only [acquireStep, hc]
      exact ⟨rfl, rfl, he pid key hc, he, fun _ _ _ => by simp [hc], id⟩
    | none =>
      simp only [acquireStep, hc]
      exact .of_unchanged (Unchanged.refl w) he trivial (by simp)
  | reading =>
    cases h : readProfileRow n w with
    | ok row w' =>
      have hrow' := readProfileRow_eq_ok h
      rw [hrow] at hrow'
      cases hrow'
      simp only [acquireStep, h]
      exact .of_unchanged ((readsOnly_readProfileRow n).of_ok h) he ⟨rfl, rfl⟩ (by simp)
    | error e w' =>
      simp only [acquireStep, h]
      exact .of_unchanged ((readsOnly_readProfileRow n).of_error h) he trivial (by simp)
  | loading pid encKey =>
    obtain ⟨rfl, rfl⟩ := hs
    cases h : loadKey kw r.profileKey w with
    | ok key w' =>
      simp only [acquireStep, h]
      exact .of_unchanged ((readsOnly_loadKey kw _).of_ok h) he
        ⟨rfl, _, (loadKey_eq_ok h).1⟩ (by simp)
    | error e w' =>
      simp only [acquireStep, h]
      exact .of_unchanged ((readsOnly_loadKey kw _).of_error h) he trivial (by simp)
  | caching pid key =>
    refine ⟨rfl, rfl, hs, fun pid' key' h => ?_, fun _ _ _ => by simp [acquireStep], fun _ => by
      simp [acquireStep]⟩
    simp only [acquireStep, KeyCache.getProfile_addProfile, if_pos] at h
    cases h; exact hs
  | returned pid key =>
    exact ⟨rfl, rfl, hs, he, hf, id⟩
  | failed => exact .of_unchanged (Unchanged.refl w) he trivial (by simp)

/-- What every reachable state of the sessions keeps, for the row `r` named `n` and the cache's
store key `ck`. -/
structure Agrees (kw : KeyWrap) (n : String) (r : ProfileRow) (ck : StoreKey) (c : Resolving) :
    Prop where
  row : c.world.db.getProfile n = [(r.id, r.profileKey)]
  storeKey : c.world.keyCache.storeKey = ck
  entry : EntryAgrees kw n r c.world.keyCache
  stages : ∀ i, StageAgrees kw r (c.sessions i)
  filled : ∀ i pid key, c.sessions i = .returned pid key → (c.world.keyCache.getProfile n).isSome

variable {ck : StoreKey}

theorem Agrees.step {c c' : Resolving} (h : Agrees kw n r ck c) (hs : Resolving.Step kw n c c') :
    Agrees kw n r ck c' := by
  cases hs with
  | session i =>
    have hk := acquireStep_keeps h.row h.entry (h.stages i) (h.filled i)
    refine ⟨by rw [hk.db]; exact h.row, hk.storeKey.trans h.storeKey, hk.entry,
      fun j => ?_, fun j pid key hj => ?_⟩
    · by_cases hji : j = i
      · subst hji; simpa using hk.stage
      · simpa [Function.update_noteq hji] using h.stages j
    · by_cases hji : j = i
      · subst hji; exact hk.filled pid key (by simpa using hj)
      · exact hk.kept (h.filled j pid key (by simpa [Function.update_noteq hji] using hj))
  | other w' hk =>
    exact ⟨hk.row.trans h.row, hk.storeKey.trans h.storeKey,
      by unfold EntryAgrees; rw [hk.cached]; exact h.entry, h.stages,
      fun i pid key hi => by rw [hk.cached]; exact h.filled i pid key hi⟩

theorem Agrees.reach {c c' : Resolving} (h : Agrees kw n r ck c)
    (hr : Relation.ReflTransGen (Resolving.Step kw n) c c') : Agrees kw n r ck c' := by
  induction hr with
  | refl => exact h
  | tail _ hs ih => exact ih.step hs

/-- A row holds at most one key. -/
theorem holds_unique {key key' : ProfileKey} (h : Holds kw r key) (h' : Holds kw r key') :
    key = key' := by
  obtain ⟨sk, hk⟩ := h
  obtain ⟨sk', hk'⟩ := h'
  obtain rfl := kw.unwrap_unique sk sk' _ key key' hk hk'
  rw [hk] at hk'; cases hk'; rfl

theorem Agrees.start {w : World} (hw : CacheAgrees kw w) (hr : r ∈ w.db.profiles)
    (hn : r.name = n) : Agrees kw n r w.keyCache.storeKey (Resolving.start w) :=
  ⟨hn ▸ Db.getProfile_of_mem hr, rfl,
    fun pid key h => (hw n pid key h r hr hn).imp_left Eq.symm, fun _ => trivial,
    fun _ _ _ h => by cases h⟩

/-! ### Every session returns -/

theorem acquireRun_returned (k : Nat) (pid : Int) (key : ProfileKey) (w : World) :
    acquireRun kw n k (.returned pid key) w = (.returned pid key, w) := by
  induction k with
  | zero => rfl
  | succ k ih => exact ih

/-- With no failure to come, and the row opening under the cache's store key, a session that has
not failed returns within four of its own steps, with the row's id and key. -/
theorem acquireRun_progress {w : World} {s : AcquireStage} {key : ProfileKey} (hf : w.faults = [])
    (hrow : w.db.getProfile n = [(r.id, r.profileKey)]) (he : EntryAgrees kw n r w.keyCache)
    (hk : kw.unwrap w.keyCache.storeKey r.profileKey = .ok key) (hs : StageAgrees kw r s)
    (hfail : s ≠ .failed) : (acquireRun kw n 4 s w).1 = .returned r.id key := by
  have hkey : ∀ {key'}, Holds kw r key' → key' = key := fun h => holds_unique h ⟨_, hk⟩
  have hread := readProfileRow_of_faults_nil n hf
  have hload := loadKey_of_faults_nil kw r.profileKey hf
  rw [hrow] at hread
  rw [hk] at hload
  cases s with
  | lookup =>
    cases hc : w.keyCache.getProfile n with
    | some p =>
      obtain ⟨pid, key'⟩ := p
      obtain ⟨rfl, hh⟩ := he pid key' hc
      simp [acquireRun, acquireStep, hc, hkey hh]
    | none => simp [acquireRun, acquireStep, hc, hread, hload]
  | reading => simp [acquireRun, acquireStep, hread, hload]
  | loading pid encKey =>
    obtain ⟨rfl, rfl⟩ := hs
    simp [acquireRun, acquireStep, hload]
  | caching pid key' =>
    obtain ⟨rfl, hh⟩ := hs
    simp [acquireRun, acquireStep, hkey hh]
  | returned pid key' =>
    obtain ⟨rfl, hh⟩ := hs
    rw [acquireRun_returned, hkey hh]
  | failed => exact absurd rfl hfail

end Agreement

/-- Sessions resolve the name `n` of a row `r` of a store whose cache agrees with its rows (the runs
of `cache_agrees_after_every_run` keep that), interleaved with one another and with other calls that
leave `n`'s row, `n`'s cache entry and the cache's store key alone. Every session that has returned
has returned `r`'s id and the key `r` holds, and the cache's entry for `n` is then that pair. With
no failure to come, and `r` opening under the cache's store key, every session that has not failed
returns that pair within four more of its own steps. -/
theorem concurrent_acquire_agrees {kw : KeyWrap} {n : String} {w : World} {r : ProfileRow}
    {c : Resolving} (hw : CacheAgrees kw w) (hr : r ∈ w.db.profiles) (hn : r.name = n)
    (hc : Relation.ReflTransGen (Resolving.Step kw n) (Resolving.start w) c) :
    (∀ i pid key, c.sessions i = .returned pid key →
      pid = r.id ∧ Holds kw r key ∧ c.world.keyCache.getProfile n = some (pid, key)) ∧
    (c.world.faults = [] → ∀ key, kw.unwrap w.keyCache.storeKey r.profileKey = .ok key →
      ∀ i, c.sessions i ≠ .failed →
        (acquireRun kw n 4 (c.sessions i) c.world).1 = .returned r.id key) := by
  have h := (Agrees.start hw hr hn).reach hc
  refine ⟨fun i pid key hi => ?_, fun hf key hk i hi => ?_⟩
  · obtain ⟨rfl, hh⟩ : pid = r.id ∧ Holds kw r key := by simpa [hi] using h.stages i
    obtain ⟨⟨pid', key'⟩, hsome⟩ := Option.isSome_iff_exists.1 (h.filled i _ _ hi)
    obtain ⟨rfl, hh'⟩ := h.entry pid' key' hsome
    exact ⟨rfl, hh, by rw [hsome, holds_unique hh' hh]⟩
  · exact acquireRun_progress hf h.row h.entry (by rw [h.storeKey]; exact hk) (h.stages i) hi

/-- `profileACreated` as a store opened on its tables finds it: the row of `a`, nothing
cached. -/
def profileAUncached : World := { profileACreated with keyCache := KeyCache.new ⟨0⟩ }

/-- From `profileAUncached`, two sessions resolving `a` take turns, step for step: both miss the
cache, both read row 1, both unwrap key 7, and both cache it and return it. -/
theorem concurrent_acquire_one_profile :
    CacheAgrees KeyWrap.symbolic profileAUncached ∧
      (⟨1, "a", sealBytes 0 7⟩ : ProfileRow) ∈ profileAUncached.db.profiles ∧
      ∃ c, Relation.ReflTransGen (Resolving.Step KeyWrap.symbolic "a")
          (Resolving.start profileAUncached) c ∧
        c.sessions 0 = .returned 1 ⟨7⟩ ∧ c.sessions 1 = .returned 1 ⟨7⟩ ∧
        (∀ i pid key, c.sessions i = .returned pid key →
          pid = 1 ∧ Holds KeyWrap.symbolic ⟨1, "a", sealBytes 0 7⟩ key ∧
            c.world.keyCache.getProfile "a" = some (pid, key)) ∧
        (c.world.faults = [] → ∀ key,
          KeyWrap.symbolic.unwrap profileAUncached.keyCache.storeKey (sealBytes 0 7) = .ok key →
          ∀ i, c.sessions i ≠ .failed →
            (acquireRun KeyWrap.symbolic "a" 4 (c.sessions i) c.world).1 = .returned 1 key) :=
  have hw : CacheAgrees KeyWrap.symbolic profileAUncached := cacheAgrees_new _ _ _ _
  have hc : Relation.ReflTransGen (Resolving.Step KeyWrap.symbolic "a")
      (Resolving.start profileAUncached) _ :=
    .tail (.tail (.tail (.tail (.tail (.tail (.tail (.tail .refl
      (.session _ 0)) (.session _ 1)) (.session _ 0)) (.session _ 1)) (.session _ 0))
      (.session _ 1)) (.session _ 0)) (.session _ 1)
  ⟨hw, by decide, _, hc, rfl, rfl, @concurrent_acquire_agrees KeyWrap.symbolic "a" profileAUncached
    ⟨1, "a", sealBytes 0 7⟩ _ hw (by decide) rfl hc⟩

/-- From a store reached by `create_profile`, `remove_profile` and a `create_profile` of `a`
that fails after its insert, two sessions resolving `a` both return id 1, while the row named `a`
has id 2. -/
theorem two_sessions_resolve_stale_pair :
    Call.runAll KeyWrap.symbolic [.createProfile (some "a") "r" ⟨7⟩, .removeProfile "a"]
        noProfiles = profileARemoved ∧
      createProfile KeyWrap.symbolic (some "a") "r" ⟨8⟩
          { profileARemoved with faults := failIdRead } =
        .error (.error ioError) profileARecreated ∧
      profileARecreated.db.getProfile "a" = [(2, sealBytes 0 8)] ∧
      ∃ c, Relation.ReflTransGen (Resolving.Step KeyWrap.symbolic "a")
          (Resolving.start profileARecreated) c ∧
        c.sessions 0 = .returned 1 ⟨7⟩ ∧ c.sessions 1 = .returned 1 ⟨7⟩ :=
  ⟨rfl, rfl, by decide,
    ⟨_, .tail (.tail .refl (.session _ 0)) (.session _ 1), by decide, by decide⟩⟩

end AskarOdbc
