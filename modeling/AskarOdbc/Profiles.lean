import AskarOdbc.Backend

/-! The profile calls of `OdbcBackend`: one spec lemma each for `create_profile`,
`remove_profile` and `list_profiles`, saying what a call that returns, and one that stops, leaves
of the tables and the `KeyCache`. `list_profiles` reads a single batch of its row set buffer, so
it returns at most ten names, and its unwrapped `fetch` panics on an empty table
(`listProfiles_first_batch`). `set_default_profile` writes the `default_profile` row that
`get_default_profile` reads back, and no other (`default_profile_after_set`). `remove_profile`
counts and deletes with two statements on two pooled connections; interleaved with other calls, a
call answers what its own count saw. -/

namespace AskarOdbc

open Op

/-! ### `INSERT_PROFILE` and `DELETE_PROFILE` -/

namespace Db

theorem insertProfile_eq_ok {db db' : Db} {name : String} {k : Bytes}
    (h : db.insertProfile name k = .ok db') :
    name ∉ db.getProfileNames ∧ db'.profiles = db.profiles ++ [⟨db.newProfileId, name, k⟩] ∧
      db'.storeKey = db.storeKey := by
  unfold insertProfile at h
  split at h
  · cases h
  · cases h; exact ⟨‹_›, rfl, rfl⟩

/-- After its insert, the id `GET_PROFILE_ID` reads back is the one the row was given. -/
theorem getProfileId_of_insertProfile {db db' : Db} {name : String} {k : Bytes}
    (h : db.insertProfile name k = .ok db') : db'.getProfileId name k = [db.newProfileId] := by
  obtain ⟨hn, hp, -⟩ := insertProfile_eq_ok h
  have : db.profiles.filter (fun r => r.name = name ∧ r.profileKey = k) = [] :=
    List.filter_eq_nil_iff.2 fun r hr hrn =>
      hn (by simp only [decide_eq_true_eq] at hrn; exact hrn.1 ▸ List.mem_map_of_mem _ hr)
  rw [getProfileId, hp, List.filter_append, this]
  simp

theorem getProfileCountForName_pos {db : Db} {name : String} :
    0 < db.getProfileCountForName name ↔ name ∈ db.getProfileNames := by
  simp [getProfileCountForName, getProfileNames, List.length_pos, List.filter_eq_nil_iff]

end Db

/-! ### `create_profile` -/

section Create

variable {kw : KeyWrap} {name : Option String} {randomName : String} {pk : ProfileKey}
  {w w' : World}

/-- A `create_profile` that returns has inserted a row under the name it returns, the key wrapped
under the `KeyCache`'s store key, and cached the row's id and key. -/
theorem createProfile_eq_ok {n : String} (h : createProfile kw name randomName pk w = .ok n w') :
    n = name.getD randomName ∧ ∃ db,
      w.db.insertProfile n (encodeProfileKey kw pk w.keyCache.storeKey) = .ok db ∧ w'.db = db ∧
        w'.keyCache = w.keyCache.addProfile n w.db.newProfileId pk := by
  obtain ⟨_, _, ⟨⟩, h⟩ := bind_eq_ok.1 h
  obtain ⟨_, w₁, h₁, h⟩ := bind_eq_ok.1 h
  obtain ⟨_, w₂, h₂, h⟩ := bind_eq_ok.1 h
  obtain ⟨pid, w₃, h₃, h⟩ := bind_eq_ok.1 h
  obtain ⟨_, w₄, h₄, h⟩ := bind_eq_ok.1 h
  cases h; cases h₄
  have hu₁ := readsOnly_attempt.of_ok h₁
  obtain ⟨db, hdb, rfl⟩ := execute_eq_ok h₂
  obtain ⟨hpid, hu₃⟩ := selectFirstOrPanic_eq_ok h₃
  rw [hu₁.db] at hdb
  have : (db.getProfileId _ _).head? = some pid := hpid
  rw [Db.getProfileId_of_insertProfile hdb] at this
  cases this
  refine ⟨rfl, db, hdb, hu₃.db, ?_⟩
  show w₃.keyCache.addProfile _ _ _ = _
  rw [hu₃.keyCache.trans hu₁.keyCache]

/-- A `create_profile` that stops has left the `KeyCache` alone, and the tables as they were or
with its row inserted. -/
theorem createProfile_eq_error {e : Fault}
    (h : createProfile kw name randomName pk w = .error e w') :
    w'.keyCache = w.keyCache ∧ (w'.db = w.db ∨
      w.db.insertProfile (name.getD randomName)
        (encodeProfileKey kw pk w.keyCache.storeKey) = .ok w'.db) := by
  rcases bind_eq_error.1 h with h | ⟨_, _, ⟨⟩, h⟩
  · cases h
  rcases bind_eq_error.1 h with h₁ | ⟨_, w₁, h₁, h⟩
  · have := readsOnly_attempt.of_error h₁; exact ⟨this.keyCache, .inl this.db⟩
  have hu₁ := readsOnly_attempt.of_ok h₁
  rcases bind_eq_error.1 h with h₂ | ⟨_, w₂, h₂, h⟩
  · have := hu₁.trans (execute_eq_error h₂); exact ⟨this.keyCache, .inl this.db⟩
  obtain ⟨db, hdb, rfl⟩ := execute_eq_ok h₂
  rw [hu₁.db] at hdb
  rcases bind_eq_error.1 h with h₃ | ⟨_, w₃, h₃, h⟩
  · have := (readsOnly_selectFirstOrPanic _).of_error h₃
    exact ⟨this.keyCache.trans hu₁.keyCache, .inr (this.db ▸ hdb)⟩
  · simp [bind_apply] at h

end Create

/-! ### `remove_profile` and `list_profiles` -/

/-- Run alone, `remove_profile` answers whether a row had the name, and then that row is gone. -/
theorem removeProfile_eq_ok {name : String} {w w' : World} {b : Bool}
    (h : removeProfile name w = .ok b w') :
    (b = true ↔ name ∈ w.db.getProfileNames) ∧ w'.keyCache = w.keyCache ∧
      w'.db = if b then w.db.deleteProfile name else w.db := by
  obtain ⟨c, w₁, h₁, h⟩ := bind_eq_ok.1 h
  obtain ⟨hc, hu₁⟩ := selectFirstOrPanic_eq_ok h₁
  cases hc
  by_cases hpos : w.db.getProfileCountForName name > 0
  · rw [if_pos hpos] at h
    obtain ⟨_, w₂, h₂, h⟩ := bind_eq_ok.1 h
    cases h
    obtain ⟨db, hdb, rfl⟩ := execute_eq_ok h₂
    cases hdb
    exact ⟨by simpa using Db.getProfileCountForName_pos.1 hpos, hu₁.keyCache, by simp [hu₁.db]⟩
  · rw [if_neg hpos] at h
    cases h
    exact ⟨by simpa using mt Db.getProfileCountForName_pos.2 hpos, hu₁.keyCache, by simp [hu₁.db]⟩

theorem removeProfile_eq_error {name : String} {w w' : World} {e : Fault}
    (h : removeProfile name w = .error e w') : Unchanged w w' := by
  rcases bind_eq_error.1 h with h₁ | ⟨c, w₁, h₁, h⟩
  · exact (readsOnly_selectFirstOrPanic _).of_error h₁
  have hu₁ := (readsOnly_selectFirstOrPanic _).of_ok h₁
  split at h
  · rcases bind_eq_error.1 h with h₂ | ⟨_, _, _, h⟩
    · exact hu₁.trans (execute_eq_error h₂)
    · cases h
  · cases h

/-- With no failure from the environment, `list_profiles` returns the first batch of names its
row set buffer holds, at most `rowSetCapacity` of them, and panics when the table is empty. -/
theorem listProfiles_first_batch (w : World) (h : w.faults = []) :
    listProfiles w = if w.db.getProfileNames = [] then .error .panic w
      else .ok (w.db.getProfileNames.take rowSetCapacity) w := by
  have hp := World.pop_of_faults_nil h
  have hf := World.fault_of_faults_nil h
  simp only [listProfiles, bind_apply, selectResult_apply, attemptOrPanic_apply, hf, hp,
    fetchBatch, List.isEmpty_iff]
  split <;> rfl

/-- Eleven profiles, one more than the row set buffer holds, and no failure to come. -/
def elevenProfiles : World where
  db := Db.ofProfiles "a" ⟨0⟩ true false
    ((List.range 11).zip ["a", "b", "c", "d", "e", "f", "g", "h", "i", "j", "k"] |>.map
      fun (i, n) => ⟨i, n, []⟩) 11 (by decide)
  keyCache := KeyCache.new ⟨0⟩
  activeProfile := "a"
  faults := []

theorem listProfiles_eleven_names : elevenProfiles.faults = [] ∧
    listProfiles elevenProfiles =
      .ok ["a", "b", "c", "d", "e", "f", "g", "h", "i", "j"] elevenProfiles :=
  ⟨rfl, (listProfiles_first_batch elevenProfiles rfl).trans rfl⟩

/-! ### The default profile -/

/-- A `set_default_profile` that returns has written the `default_profile` row and nothing else:
a `get_default_profile` right after it that returns answers the name, and with no failure from
the environment it does return. The name need not be a profile's, and a session opened with no
profile still acts for the backend's active profile, not the default one. -/
theorem default_profile_after_set {p : String} {w w' : World} {u : Unit}
    (h : setDefaultProfile p w = .ok u w') :
    w'.db = w.db.updateConfigProfile p ∧ w'.keyCache = w.keyCache ∧
      (∀ q w'', getDefaultProfile w' = .ok q w'' → q = p) ∧
      (w'.faults = [] → getDefaultProfile w' = .ok p w') ∧
      ∀ s w'', session none false w' = .ok s w'' → s.profile = w.activeProfile := by
  obtain ⟨db, hdb, rfl⟩ := execute_eq_ok h
  cases hdb
  refine ⟨rfl, rfl, fun q w'' hq => ?_, fun hf => ?_, fun s w'' hs => ?_⟩
  · exact (Option.some.inj (selectFirstOrPanic_eq_ok hq).1).symm
  · exact (selectFirstOrPanic_of_faults_nil _ hf).trans rfl
  · cases hs; rfl

/-! ### `remove_profile` interleaved with other calls

`remove_profile` counts the rows with its name on one pooled connection and deletes them on
another, and `create_profile` runs its statements one by one: the statements of other calls can
run between any two of them. A call's stage is where it is in its body, and a schedule is the
order in which the calls' statements run. -/

/-- The count of `remove_profile`. -/
def countProfile (name : String) : Op Int :=
  selectFirstOrPanic fun db => [db.getProfileCountForName name]

/-- The `DELETE_PROFILE` of `remove_profile`. -/
def deleteProfileRows (name : String) : Op Unit := execute fun db => .ok (db.deleteProfile name)

theorem removeProfile_eq_statements (name : String) : removeProfile name = do
    let count ← countProfile name
    if count > 0 then
      deleteProfileRows name
      return true
    else return false := rfl

/-- Where a `remove_profile` call is; an answered call records whether its `DELETE` found a
row. -/
inductive RemoveStage
  | counting
  | deleting
  | answered (ret removed : Bool)
  | failed
  deriving DecidableEq, Repr

/-- The next statement of a `remove_profile name` call. -/
def removeStep (name : String) : RemoveStage → World → RemoveStage × World
  | .counting, w => match countProfile name w with
    | .ok count w' => (if count > 0 then .deleting else .answered false false, w')
    | .error _ w' => (.failed, w')
  | .deleting, w => match deleteProfileRows name w with
    | .ok _ w' => (.answered true (decide (name ∈ w.db.getProfileNames)), w')
    | .error _ w' => (.failed, w')
  | s, w => (s, w)

/-- Run back to back, the two steps of a `remove_profile` call are the call. -/
theorem removeStep_removeStep (name : String) (w : World) :
    match removeProfile name w with
    | .ok b w' => ∃ removed, removeStep name (removeStep name .counting w).1
        (removeStep name .counting w).2 = (.answered b removed, w')
    | .error _ w' => removeStep name (removeStep name .counting w).1
        (removeStep name .counting w).2 = (.failed, w') := by
  rw [removeProfile_eq_statements, bind_apply]
  simp only [removeStep]
  cases countProfile name w with
  | error e w₁ => rfl
  | ok count w₁ =>
    by_cases hc : count > 0
    · simp only [hc, if_true, bind_apply]
      cases deleteProfileRows name w₁ with
      | ok => exact ⟨_, rfl⟩
      | error => rfl
    · simp only [hc, if_false]
      exact ⟨false, rfl⟩

/-- Where a `create_profile (some name)` call is, with the wrapped key once it has one. -/
inductive CreateStage
  | encoding
  | inserting (encKey : Bytes)
  | reading (encKey : Bytes)
  | caching (pid : Int)
  | answered
  | failed
  deriving DecidableEq, Repr

/-- The next statement of a `create_profile (some name)` call that generates `pk`. -/
def createStep (kw : KeyWrap) (name : String) (pk : ProfileKey) :
    CreateStage → World → CreateStage × World
  | .encoding, w => match attempt w with
    | .ok _ w' => (.inserting (encodeProfileKey kw pk w.keyCache.storeKey), w')
    | .error _ w' => (.failed, w')
  | .inserting encKey, w => match execute (·.insertProfile name encKey) w with
    | .ok _ w' => (.reading encKey, w')
    | .error _ w' => (.failed, w')
  | .reading encKey, w => match selectFirstOrPanic (·.getProfileId name encKey) w with
    | .ok pid w' => (.caching pid, w')
    | .error _ w' => (.failed, w')
  | .caching pid, w => (.answered, { w with keyCache := w.keyCache.addProfile name pid pk })
  | s, w => (s, w)

/-- Concurrent `remove_profile name` and `create_profile (some name)` calls on one store: the
world they share, and where each call is. -/
structure Calls where
  world : World
  removes : Nat → RemoveStage
  creates : Nat → CreateStage

/-- The call whose next statement runs. -/
inductive Turn
  | remove (i : Nat)
  | create (i : Nat)
  deriving DecidableEq, Repr

namespace Calls

variable (kw : KeyWrap) (name : String) (keys : Nat → ProfileKey)

/-- The calls before any statement has run. -/
def start (w : World) : Calls := ⟨w, fun _ => .counting, fun _ => .encoding⟩

/-- One statement of the call whose turn it is; the `i`-th create generates `keys i`. -/
def step (c : Calls) : Turn → Calls
  | .remove i =>
    let r := removeStep name (c.removes i) c.world
    { c with world := r.2, removes := Function.update c.removes i r.1 }
  | .create i =>
    let r := createStep kw name (keys i) (c.creates i) c.world
    { c with world := r.2, creates := Function.update c.creates i r.1 }

/-- The calls after a schedule. -/
def run (c : Calls) (turns : List Turn) : Calls := turns.foldl (step kw name keys) c

end Calls

/-! ### The first answer of concurrent removals -/

/-- What one `remove_profile` statement can do: answer `true`, or else leave the names of the
rows alone, answering `false` only when no row has the name. -/
theorem removeStep_spec (name : String) (s : RemoveStage) (w : World) :
    (∃ r, (removeStep name s w).1 = .answered true r) ∨
      ((removeStep name s w).2.db.getProfileNames = w.db.getProfileNames ∧
        (∀ r, s ≠ .answered true r) ∧
        ∀ r, (removeStep name s w).1 = .answered false r →
          s = .answered false r ∨ name ∉ w.db.getProfileNames) := by
  cases s with
  | counting =>
    cases h : countProfile name w with
    | ok count w' =>
      obtain ⟨hc, hu⟩ := selectFirstOrPanic_eq_ok h
      cases hc
      have hnames : w'.db.getProfileNames = w.db.getProfileNames := by
        rw [Db.getProfileNames, hu.db]; rfl
      by_cases hpos : w.db.getProfileCountForName name > 0
      · exact .inr ⟨by simp [removeStep, h, hnames], by simp, by simp [removeStep, h, hpos]⟩
      · exact .inr ⟨by simp [removeStep, h, hnames], by simp,
          fun _ _ => .inr (mt Db.getProfileCountForName_pos.2 hpos)⟩
    | error e w' =>
      have hu := (readsOnly_selectFirstOrPanic _).of_error h
      exact .inr ⟨by simp [removeStep, h, Db.getProfileNames, hu.db], by simp,
        by simp [removeStep, h]⟩
  | deleting =>
    simp only [removeStep]
    cases h : deleteProfileRows name w with
    | ok u w' => exact .inl ⟨_, rfl⟩
    | error e w' =>
      have hu := execute_eq_error h
      exact .inr ⟨by rw [Db.getProfileNames, hu.db]; rfl, by simp, by simp⟩
  | answered ret removed =>
    cases ret
    · exact .inr ⟨rfl, by simp, fun r hr => .inl hr⟩
    · exact .inl ⟨_, rfl⟩
  | failed => exact .inr ⟨rfl, by simp, by simp [removeStep]⟩

/-- No statement of `create_profile` removes a row. -/
theorem createStep_names (kw : KeyWrap) (name : String) (pk : ProfileKey) (s : CreateStage)
    (w : World) {n : String} (hn : n ∈ w.db.getProfileNames) :
    n ∈ (createStep kw name pk s w).2.db.getProfileNames := by
  have keep : ∀ {w' : World}, Unchanged w w' → n ∈ w'.db.getProfileNames := fun hu => by
    rw [Db.getProfileNames, hu.db]; exact hn
  cases s with
  | encoding =>
    simp only [createStep]
    cases h : attempt w with
    | ok u w' => exact keep (readsOnly_attempt.of_ok h)
    | error e w' => exact keep (readsOnly_attempt.of_error h)
  | inserting encKey =>
    simp only [createStep]
    cases h : execute (·.insertProfile name encKey) w with
    | ok u w' =>
      obtain ⟨db, hdb, rfl⟩ := execute_eq_ok h
      rw [Db.getProfileNames, (Db.insertProfile_eq_ok hdb).2.1, List.map_append]
      exact List.mem_append_left _ hn
    | error e w' => exact keep (execute_eq_error h)
  | reading encKey =>
    simp only [createStep]
    cases h : selectFirstOrPanic (·.getProfileId name encKey) w with
    | ok pid w' => exact keep ((readsOnly_selectFirstOrPanic _).of_ok h)
    | error e w' => exact keep ((readsOnly_selectFirstOrPanic _).of_error h)
  | caching pid => exact hn
  | answered => exact hn
  | failed => exact hn

namespace Calls

variable {kw : KeyWrap} {name : String} {keys : Nat → ProfileKey}

/-- Some `remove_profile` call has answered `true`, or a row still has the name and no call has
answered `false`. -/
def FirstAnswerTrue (name : String) (c : Calls) : Prop :=
  (∃ i r, c.removes i = .answered true r) ∨
    (name ∈ c.world.db.getProfileNames ∧ ∀ i r, c.removes i ≠ .answered false r)

theorem firstAnswerTrue_step {c : Calls} (h : FirstAnswerTrue name c) (t : Turn) :
    FirstAnswerTrue name (c.step kw name keys t) := by
  cases t with
  | remove i =>
    rcases removeStep_spec name (c.removes i) c.world with ⟨r, hr⟩ | ⟨hnames, hnt, hnf⟩
    · exact .inl ⟨i, r, by simp [step, hr]⟩
    rcases h with ⟨j, r, hj⟩ | ⟨hn, hf⟩
    · have hji : j ≠ i := fun hji => hnt r (hji ▸ hj)
      exact .inl ⟨j, r, by simp [step, Function.update_noteq hji, hj]⟩
    refine .inr ⟨by simpa [step, hnames] using hn, fun j r hj => ?_⟩
    by_cases hji : j = i
    · subst hji
      simp only [step, Function.update_same] at hj
      rcases hnf r hj with hs | hs
      · exact hf j r hs
      · exact hs hn
    · simp only [step, Function.update_noteq hji] at hj
      exact hf j r hj
  | create i =>
    rcases h with h | ⟨hn, hf⟩
    · exact .inl h
    · exact .inr ⟨createStep_names kw name (keys i) _ _ hn, hf⟩

theorem firstAnswerTrue_run {c : Calls} (h : FirstAnswerTrue name c) (turns : List Turn) :
    FirstAnswerTrue name (c.run kw name keys turns) := by
  induction turns generalizing c with
  | nil => exact h
  | cons t turns ih => exact ih (firstAnswerTrue_step h t)

end Calls

/-- Run alone, `remove_profile` answers `true` exactly when a row had the name, and its `DELETE`
then removed it. Interleaved with other `remove_profile` and `create_profile` calls on a name
that has a row, a call answers `false` only once some call has answered `true`. -/
theorem remove_profile_first_answer_true :
    (∀ (name : String) (w w' : World) (b : Bool), removeProfile name w = .ok b w' →
      (b = true ↔ name ∈ w.db.getProfileNames) ∧
        w'.db = if b then w.db.deleteProfile name else w.db) ∧
    ∀ (kw : KeyWrap) (name : String) (keys : Nat → ProfileKey) (w : World) (turns : List Turn),
      name ∈ w.db.getProfileNames → ∀ i b r,
        ((Calls.start w).run kw name keys turns).removes i = .answered b r →
        ∃ j r', ((Calls.start w).run kw name keys turns).removes j = .answered true r' := by
  refine ⟨fun name w w' b h => ⟨(removeProfile_eq_ok h).1, (removeProfile_eq_ok h).2.2⟩, ?_⟩
  intro kw name keys w turns hn i b r hi
  have h₀ : Calls.FirstAnswerTrue name (Calls.start w) := .inr ⟨hn, by simp [Calls.start]⟩
  rcases Calls.firstAnswerTrue_run h₀ turns with ⟨j, r', hj⟩ | ⟨-, hf⟩
  · exact ⟨j, r', hj⟩
  · cases b
    · exact absurd hi (hf i r)
    · exact ⟨i, r, hi⟩

/-- One profile, named `a`. -/
def oneProfile : World where
  db := Db.ofProfiles "a" ⟨0⟩ true false [⟨1, "a", []⟩] 2 (by decide)
  keyCache := KeyCache.new ⟨0⟩
  activeProfile := "a"
  faults := []

/-- Two removals that both count before either deletes. -/
def bothCountFirst : List Turn := [.remove 0, .remove 1, .remove 0, .remove 1]

theorem two_removes_first_answer :
    ∃ j r, ((Calls.start oneProfile).run KeyWrap.symbolic "a" (fun _ => ⟨0⟩)
      bothCountFirst).removes j = .answered true r :=
  remove_profile_first_answer_true.2 _ _ _ _ _ (by decide) 1 true false (by decide)

/-- Both calls answer `true`, and the second one's `DELETE` removed no row. -/
theorem two_removes_both_answer_true :
    ((Calls.start oneProfile).run KeyWrap.symbolic "a" (fun _ => ⟨0⟩)
        bothCountFirst).removes 0 = .answered true true ∧
      ((Calls.start oneProfile).run KeyWrap.symbolic "a" (fun _ => ⟨0⟩)
        bothCountFirst).removes 1 = .answered true false := by
  decide

end AskarOdbc
