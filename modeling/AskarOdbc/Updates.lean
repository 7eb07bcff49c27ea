import AskarOdbc.Progress

/-! Concurrent calls of `update`. A session sends the statements of its call one at a time on its
own connection, with no transaction around them (the source leaves "Can we use a transaction
here???" open), so the statements of other sessions' calls can run between any two of them. A
call's stage is where it is in its body, and `updateStep` runs its next statement: run back to
back, the steps are the call (`updateRun_run`).

`Updates` runs any number of calls in any order. Its log, a ghost field, records each call when its
item statement (`INSERT_ITEM`, `UPDATE_ITEM` or `DELETE_ITEM`) runs. The entries are always the
log's calls applied one after another (`concurrent_updates_serialize`): the item statement is where
a call takes effect. The tags of an entry do not serialize, since a call's `DELETE_TAG`,
`GET_ITEM_ID` and `INSERT_TAG`s interleave with other calls' statements. What holds is that a tag
never reaches another entry (`concurrent_updates_keep_tags_apart`): the id `GET_ITEM_ID` gives a
call stays the id of that call's entry alone, in a schema that gives out no item id twice
(`Db.reusesIds` false; a rowid table that reuses the largest id does not). Each call reads the clock
for its expiry at its own instant (`UpdateCall.now`). With an environment that fails nothing, a call
stops only where one of its statements is refused (`concurrent_update_stops_exactly_when`): under
interleaving that includes the `INSERT_ITEM` of an entry another call has just written, and, in a
schema whose foreign key cascades, an `INSERT_TAG` under an item another call has just removed. -/

namespace AskarOdbc

open Op

/-! ### The statements of a call -/

/-- The `match expiry_ms` of `update`: the formatted timestamp, or the empty string. -/
def expiryString (et : Int → Except Error String) : Option Int → Op String
  | none => pure ""
  | some ms => check (et ms)

/-- The item statement of an `Insert | Replace`: the `INSERT_ITEM` or the `UPDATE_ITEM`, with the
expiry column when the expiry string is not empty. -/
def itemStatement (op : EntryOperation) (pid : Int) (kind : EntryKind)
    (encCategory encName encValue : Bytes) (expiryStr : String) : Op Unit :=
  if op = .insert then
    if expiryStr.isEmpty then
      execute (·.insertItem pid kind.toI16 encCategory encName encValue none)
    else
      execute (·.insertItem pid kind.toI16 encCategory encName encValue (some expiryStr))
  else if expiryStr.isEmpty then
    execute fun db => .ok (db.updateItem encValue none pid kind.toI16 encCategory encName)
  else
    execute fun db =>
      .ok (db.updateItem encValue (some expiryStr) pid kind.toI16 encCategory encName)

/-- The item statements of `update` are its item statement, then for a replace the `DELETE_TAG`. -/
theorem storeItem_eq (op : EntryOperation) (pid : Int) (kind : EntryKind)
    (encCategory encName encValue : Bytes) (expiryStr : String) :
    storeItem op pid kind encCategory encName encValue expiryStr =
      if op = .insert then itemStatement op pid kind encCategory encName encValue expiryStr
      else itemStatement op pid kind encCategory encName encValue expiryStr >>= fun _ =>
        execute fun db => .ok (db.deleteTag pid) := by
  unfold storeItem itemStatement
  split <;> rfl

/-- The item statement is one statement whatever the expiry: the column is NULL for the empty
string. -/
theorem itemStatement_eq (op : EntryOperation) (pid : Int) (kind : EntryKind)
    (encCategory encName encValue : Bytes) (expiryStr : String) :
    itemStatement op pid kind encCategory encName encValue expiryStr =
      if op = .insert then
        execute (·.insertItem pid kind.toI16 encCategory encName encValue
          (if expiryStr.isEmpty then none else some expiryStr))
      else execute fun db => .ok (db.updateItem encValue
        (if expiryStr.isEmpty then none else some expiryStr) pid kind.toI16 encCategory
          encName) := by
  by_cases h : expiryStr.isEmpty <;> simp [itemStatement, h]

/-- Where a call of `update` is in its body, with the profile id and key once `acquire_key` has
given them. -/
inductive UpdateStage
  | acquiring (s : AcquireStage)
  | encrypting (pid : Int) (key : ProfileKey)
  | preallocating (pid : Int) (key : ProfileKey)
  | storing (pid : Int) (key : ProfileKey) (expiryStr : String)
  | deletingTags (pid : Int) (key : ProfileKey)
  | findingId (pid : Int) (key : ProfileKey)
  | preparing (pid : Int) (key : ProfileKey) (itemId : Int)
  | tagging (pid : Int) (key : ProfileKey) (itemId : Int) (rest : List EncEntryTag)
  | removing (pid : Int) (key : ProfileKey)
  | returned
  | failed
  deriving DecidableEq, Repr

namespace UpdateStage

/-- The stage a call is in once a step of its `acquire_key` left `s`. -/
def ofAcquire : AcquireStage → UpdateStage
  | .returned pid key => .encrypting pid key
  | .failed => .failed
  | s => .acquiring s

/-- The stage an external call leads to: `next a` when it returns `a`, `failed` when it stops. -/
def after {α : Type} (next : α → UpdateStage) : EStateM.Result Fault World α → UpdateStage × World
  | .ok a w' => (next a, w')
  | .error _ w' => (.failed, w')

end UpdateStage

section Step

variable (kw : KeyWrap) (codec : EntryCodec) (et : Int → Int → Except Error String) (c : UpdateCall)

/-- Where a call goes once its item statements have run: to `GET_ITEM_ID` with a tag list. -/
def UpdateCall.afterItem (pid : Int) (key : ProfileKey) : UpdateStage :=
  if c.tags.isSome then .findingId pid key else .returned

/-- The next statement of a call of `update`. -/
def updateStep : UpdateStage → World → UpdateStage × World
  | .acquiring s, w =>
    let r := acquireStep kw c.session.profile s w
    (.ofAcquire r.1, r.2)
  | .encrypting pid key, w =>
    UpdateStage.after (fun _ =>
      if c.operation = .remove then .removing pid key else .preallocating pid key) (attempt w)
  | .preallocating pid key, w =>
    UpdateStage.after (fun s => .storing pid key s)
      ((attemptOrPanic >>= fun _ => expiryString (et c.now) c.expiryMs) w)
  | .storing pid key s, w =>
    UpdateStage.after (fun _ =>
      if c.operation = .insert then c.afterItem pid key else .deletingTags pid key)
      (itemStatement c.operation pid c.kind (codec.encryptCategory key c.category)
        (codec.encryptName key c.name) (codec.encryptValue key c.category c.name (c.value.getD []))
        s w)
  | .deletingTags pid key, w =>
    UpdateStage.after (fun _ => c.afterItem pid key) (execute (fun db => .ok (db.deleteTag pid)) w)
  | .findingId pid key, w =>
    UpdateStage.after (fun itemId => .preparing pid key itemId)
      (selectFirstOrPanic (·.getItemId pid c.kind.toI16 (codec.encryptCategory key c.category)
        (codec.encryptName key c.name)) w)
  | .preparing pid key itemId, w =>
    UpdateStage.after (fun _ =>
      .tagging pid key itemId ((c.tags.getD []).map (codec.encryptTag key))) (attemptOrPanic w)
  | .tagging _ _ _ [], w => (.returned, w)
  | .tagging pid key itemId (t :: rest), w =>
    UpdateStage.after (fun _ => .tagging pid key itemId rest)
      (execute (·.insertTag itemId t.name t.value (if t.plaintext then 1 else 0)) w)
  | .removing pid key, w =>
    UpdateStage.after (fun _ => .returned)
      (execute (fun db => .ok (db.deleteItem pid c.kind.toI16 (codec.encryptCategory key c.category)
        (codec.encryptName key c.name))) w)
  | s, w => (s, w)

/-- `k` steps of one call of `update`, with no other statement between them. -/
def updateRun : Nat → UpdateStage → World → UpdateStage × World
  | 0, s, w => (s, w)
  | k + 1, s, w => updateRun k (updateStep kw codec et c s w).1 (updateStep kw codec et c s w).2

/-- From stage `s` in `w`, steps of the call alone reach `r`. -/
def UpdateStage.Leads (s : UpdateStage) (w : World) (r : UpdateStage × World) : Prop :=
  ∃ k, updateRun kw codec et c k s w = r

end Step

/-- The stage and world a call's remaining statements leave when they end in `r`. -/
def UpdateStage.finish {α : Type} (r : EStateM.Result Fault World α) : UpdateStage × World :=
  after (fun _ => .returned) r

section Leads

variable {kw : KeyWrap} {codec : EntryCodec} {et : Int → Int → Except Error String} {c : UpdateCall}

theorem updateStep_reading (w : World) :
    updateStep kw codec et c (.acquiring .reading) w =
      UpdateStage.after (fun row => .acquiring (.loading row.1 row.2))
        (readProfileRow c.session.profile w) := by
  simp only [updateStep, acquireStep]
  cases readProfileRow c.session.profile w <;> rfl

theorem updateStep_loading (pid : Int) (encKey : Bytes) (w : World) :
    updateStep kw codec et c (.acquiring (.loading pid encKey)) w =
      UpdateStage.after (fun key => .acquiring (.caching pid key)) (loadKey kw encKey w) := by
  simp only [updateStep, acquireStep]
  cases loadKey kw encKey w <;> rfl

namespace UpdateStage

theorem Leads.refl (s : UpdateStage) (w : World) : Leads kw codec et c s w (s, w) := ⟨0, rfl⟩

/-- A step, then steps that reach `r`. -/
theorem Leads.head {s : UpdateStage} {w : World} {r : UpdateStage × World}
    (h : Leads kw codec et c (updateStep kw codec et c s w).1 (updateStep kw codec et c s w).2 r) :
    Leads kw codec et c s w r :=
  let ⟨k, hk⟩ := h; ⟨k + 1, hk⟩

/-- A last statement: its step ends the call as the statement ends. -/
theorem Leads.last {s : UpdateStage} {w : World} {α : Type} {op : Op α}
    (hs : updateStep kw codec et c s w = finish (op w)) :
    Leads kw codec et c s w (finish (op w)) :=
  .head (by rw [hs]; cases op w <;> exact .refl _ _)

/-- A step that runs the statement `op`, then the rest of the call: the call ends as `op >>= f`
does. -/
theorem Leads.bind {s : UpdateStage} {w : World} {α β : Type} {op : Op α} {f : α → Op β}
    {next : α → UpdateStage} (hs : updateStep kw codec et c s w = after next (op w))
    (hf : ∀ a w', op w = .ok a w' → Leads kw codec et c (next a) w' (finish (f a w'))) :
    Leads kw codec et c s w (finish ((op >>= f) w)) := by
  refine .head ?_
  rw [hs, bind_apply]
  cases h : op w with
  | ok a w' => exact hf a w' h
  | error e w' => exact .refl _ _

/-- The steps of `acquire_key`: the call ends as `acquire_key` and what follows it do. -/
theorem Leads.acquire {w : World} {β : Type} {g : Int × ProfileKey → Op β}
    (hg : ∀ pid key w', Leads kw codec et c (.encrypting pid key) w' (finish (g (pid, key) w'))) :
    Leads kw codec et c (.acquiring .lookup) w (finish ((acquireKey kw c.session >>= g) w)) := by
  rw [acquireKey_eq, bind_assoc, bind_apply, get_apply]
  refine .head ?_
  dsimp only
  cases hc : w.keyCache.getProfile c.session.profile with
  | some p =>
    simp only [updateStep, acquireStep, hc, ofAcquire]
    exact hg p.1 p.2 w
  | none =>
    simp only [updateStep, acquireStep, hc, ofAcquire, bind_assoc]
    exact .bind (updateStep_reading w) fun row w₁ _ =>
      .bind (updateStep_loading _ _ w₁) fun key w₂ _ => .head (hg row.1 key _)

/-- The steps of the tag loop: the call ends as the loop does. -/
theorem Leads.insertTags (pid : Int) (key : ProfileKey) (itemId : Int) (ts : List EncEntryTag)
    (w : World) :
    Leads kw codec et c (.tagging pid key itemId ts) w
      (finish (AskarOdbc.insertTags itemId ts w)) := by
  induction ts generalizing w with
  | nil => exact .head (.refl _ _)
  | cons t ts ih => exact .bind rfl fun _ w' _ => ih w'

/-- The steps after the item statements: the call ends as its tag statements do. -/
theorem Leads.tags (pid : Int) (key : ProfileKey) (w : World) :
    Leads kw codec et c (c.afterItem pid key) w
      (finish ((match c.tags.map (·.map (codec.encryptTag key)) with
      | none => pure ()
      | some tags => do
        let itemId ← selectFirstOrPanic (·.getItemId pid c.kind.toI16
          (codec.encryptCategory key c.category) (codec.encryptName key c.name))
        attemptOrPanic
        AskarOdbc.insertTags itemId tags : Op Unit) w)) := by
  obtain ⟨_, _, _, _, _, _, _ | ts, _, _⟩ := c
  · exact .refl _ _
  · exact .bind rfl fun itemId w₁ _ => .bind rfl fun _ w₂ _ => .insertTags pid key itemId _ w₂

end UpdateStage

end Leads

section Refines

variable {kw : KeyWrap} {codec : EntryCodec} {et : Int → Int → Except Error String}

/-- Run alone, the steps of a call are the call: from its first stage they end in `returned` with
the world the call leaves when it returns, and in `failed` with the world it leaves when it
stops. -/
theorem updateRun_run (c : UpdateCall) (w : World) :
    ∃ k, updateRun kw codec et c k (.acquiring .lookup) w =
      UpdateStage.finish (c.run kw codec et w) := by
  obtain ⟨session, kind, op, category, name, value, tags, ms, now⟩ := c
  unfold UpdateCall.run update
  cases op with
  | remove =>
    exact UpdateStage.Leads.acquire fun pid key w' => .bind rfl fun _ w'' _ => .last rfl
  | insert =>
    refine UpdateStage.Leads.acquire fun pid key w' => ?_
    unfold writeEntry
    refine .bind rfl fun _ w₁ _ => ?_
    rw [← bind_assoc]
    refine .bind rfl fun s w₂ _ => ?_
    exact .bind rfl fun _ w₃ _ => .tags pid key w₃
  | replace =>
    refine UpdateStage.Leads.acquire fun pid key w' => ?_
    unfold writeEntry
    refine .bind rfl fun _ w₁ _ => ?_
    rw [← bind_assoc]
    refine .bind rfl fun s w₂ _ => ?_
    simp only [storeItem_eq, reduceCtorEq, if_false, bind_assoc]
    exact .bind rfl fun _ w₃ _ => .bind rfl fun _ w₄ _ => .tags pid key w₄

end Refines


/-! ### Calls from several sessions -/

namespace UpdateStage

/-- The call's item statement, its `INSERT_ITEM`, `UPDATE_ITEM` or `DELETE_ITEM`, has not run. -/
def pending : UpdateStage → Bool
  | .acquiring _ | .encrypting .. | .preallocating .. | .storing .. | .removing .. => true
  | _ => false

/-- The call's item statement has run, and the call has not stopped. -/
def written : UpdateStage → Bool
  | .deletingTags .. | .findingId .. | .preparing .. | .tagging .. | .returned => true
  | _ => false

end UpdateStage

/-- Calls of `update` from several sessions, each at its stage, in the world they share, with the
calls whose item statement has run, in the order it ran. -/
structure Updates where
  world : World
  stages : Nat → UpdateStage
  log : List Nat

namespace Updates

variable (kw : KeyWrap) (codec : EntryCodec) (et : Int → Int → Except Error String)
  (calls : Nat → UpdateCall)

/-- No call has taken a step yet. -/
def start (w : World) : Updates := ⟨w, fun _ => .acquiring .lookup, []⟩

/-- The next statement of the `i`-th call. The log takes the call when the step leaves the stages
before its item statement for those after it: its item statement has just run. -/
def step (i : Nat) (u : Updates) : Updates :=
  let r := updateStep kw codec et (calls i) (u.stages i) u.world
  ⟨r.2, Function.update u.stages i r.1,
    if (u.stages i).pending && r.1.written then u.log ++ [i] else u.log⟩

/-- The statements of the calls, in the order `schedule` gives. -/
def run : List Nat → Updates → Updates
  | [], u => u
  | i :: schedule, u => run schedule (step kw codec et calls i u)

end Updates

section Agreement

variable (kw : KeyWrap) (ids : String → Int) (keys : Int → ProfileKey)
  (et : Int → Int → Except Error String) (c : UpdateCall)

/-- The pair a stage holds is the profile id and key `ids` and `keys` give the session's
profile. -/
def UpdateCall.Resolved (pid : Int) (key : ProfileKey) : Prop :=
  pid = ids c.session.profile ∧ key = keys pid

variable (codec : EntryCodec)

/-- What a stage of the call `c` holds: the pair `ids` and `keys` give its session's profile, the
branch of its operation, the expiry it stores, and the tags it has yet to insert, the last of
its encrypted tags. -/
def UpdateStage.Agrees : UpdateStage → Prop
  | .acquiring (.loading pid encKey) =>
    pid = ids c.session.profile ∧ ∀ sk key, kw.unwrap sk encKey = .ok key → key = keys pid
  | .acquiring (.caching pid key) | .acquiring (.returned pid key) | .encrypting pid key
  | .deletingTags pid key | .findingId pid key | .preparing pid key _ =>
    c.Resolved ids keys pid key
  | .preallocating pid key => c.Resolved ids keys pid key ∧ c.operation ≠ .remove
  | .storing pid key s => c.Resolved ids keys pid key ∧ c.operation ≠ .remove ∧
    storedExpiry (et c.now) c.expiryMs = .ok (if s.isEmpty then none else some s)
  | .removing pid key => c.Resolved ids keys pid key ∧ c.operation = .remove
  | .tagging pid key _ rest => c.Resolved ids keys pid key ∧
    rest <:+ (c.tags.getD []).map (codec.encryptTag key)
  | .acquiring .failed => False
  | _ => True

/-- What one step of the call `c` at stage `s` in `w` leaves: the sessions still resolve as `ids`
and `keys` say, the new stage agrees, and the entries are as they were, or, when the step was the
call's item statement, as the call's operation leaves them. -/
structure UpdateCall.StepKeeps (w : World) (s : UpdateStage) (p : UpdateStage × World) : Prop where
  agree : ProfilesAgree kw ids keys p.2
  stage : p.1.Agrees kw ids keys et c codec
  entries : p.2.db.entries codec keys = if s.pending && p.1.written
    then (w.db.entries codec keys).apply c.operation (c.entry ids) (c.held et)
    else w.db.entries codec keys

end Agreement

section Keeps

variable {kw : KeyWrap} {ids : String → Int} {keys : Int → ProfileKey}
  {et : Int → Int → Except Error String} {codec : EntryCodec} {c : UpdateCall}

theorem readsOnly_expiryString (et : Int → Except Error String) (ms : Option Int) :
    ReadsOnly (expiryString et ms) := by
  cases ms with
  | none => exact readsOnly_pure _
  | some ms => exact readsOnly_check _

/-- The item statement stops having written nothing. -/
theorem itemStatement_eq_error {op : EntryOperation} {pid : Int} {kind : EntryKind}
    {encCategory encName encValue : Bytes} {s : String} {w w' : World} {f : Fault}
    (h : itemStatement op pid kind encCategory encName encValue s w = .error f w') :
    Unchanged w w' := by
  rw [itemStatement_eq] at h
  split at h <;> exact execute_eq_error h

/-- The item statement that returns does to the entries what the operation says, and writes no
profile row and no cache entry. -/
theorem itemStatement_eq_ok (e : EntryId) {op : EntryOperation} {v : Bytes} {s : String}
    {w w' : World} {u : Unit} (hop : op ≠ .remove)
    (h : itemStatement op e.profileId e.kind (codec.encryptCategory (keys e.profileId) e.category)
      (codec.encryptName (keys e.profileId) e.name)
      (codec.encryptValue (keys e.profileId) e.category e.name v) s w = .ok u w') :
    w'.keyCache = w.keyCache ∧ w'.db.profiles = w.db.profiles ∧
      w'.db.entries codec keys =
        (w.db.entries codec keys).apply op e ⟨some v, if s.isEmpty then none else some s⟩ := by
  rw [itemStatement_eq] at h
  cases op with
  | insert =>
    rw [if_pos rfl] at h
    obtain ⟨db, hitem, rfl⟩ := execute_eq_ok h
    exact ⟨rfl, (Db.insertEntryRow_eq_ok hitem).2.2.2.2.1, Db.entries_insertEntryRow hitem⟩
  | replace =>
    rw [if_neg (by decide)] at h
    obtain ⟨db, hdb, rfl⟩ := execute_eq_ok h
    cases hdb
    exact ⟨rfl, rfl, Db.entries_updateEntryRow _ _ _ _⟩
  | remove => exact absurd rfl hop

/-- Caching the pair `ids` and `keys` give a name keeps the cache agreeing with them. -/
theorem ProfilesAgree.addProfile {w : World} {n : String} {pid : Int} {key : ProfileKey}
    (hw : ProfilesAgree kw ids keys w) (hid : pid = ids n) (hkey : key = keys pid) :
    ProfilesAgree kw ids keys { w with keyCache := w.keyCache.addProfile n pid key } := by
  refine ⟨hw.rows, fun n' pid' key' h => ?_⟩
  simp only [KeyCache.getProfile_addProfile] at h
  split at h
  · cases h; subst n'; exact ⟨hid.symm, hkey.symm⟩
  · exact hw.cache _ _ _ h

namespace UpdateCall.StepKeeps

/-- A step that writes neither the items, nor the profile rows, nor the cache, and is not the
call's item statement. -/
theorem of_frame {w w' : World} {s t : UpdateStage} (hw : ProfilesAgree kw ids keys w)
    (hc : w'.keyCache = w.keyCache) (hp : w'.db.profiles = w.db.profiles)
    (hi : w'.db.items = w.db.items) (ht : t.Agrees kw ids keys et c codec)
    (hn : (s.pending && t.written) = false) : c.StepKeeps kw ids keys et codec w s (t, w') := by
  refine ⟨hw.of_eq hp hc, ht, ?_⟩
  simp only [hn, Bool.false_eq_true, if_false]
  exact Db.entries_of_items hi

theorem of_unchanged {w w' : World} {s t : UpdateStage} (hw : ProfilesAgree kw ids keys w)
    (hu : Unchanged w w') (ht : t.Agrees kw ids keys et c codec)
    (hn : (s.pending && t.written) = false) :
    c.StepKeeps kw ids keys et codec w s (t, w') :=
  of_frame hw hu.keyCache (by rw [hu.db]) (by rw [hu.db]) ht hn

/-- A step that runs one statement: a statement that stops writes nothing and fails the call. -/
theorem after {α : Type} {r : EStateM.Result Fault World α} {next : α → UpdateStage} {w : World}
    {s : UpdateStage} (hw : ProfilesAgree kw ids keys w)
    (hok : ∀ a w', r = .ok a w' → c.StepKeeps kw ids keys et codec w s (next a, w'))
    (herr : ∀ e w', r = .error e w' → Unchanged w w') :
    c.StepKeeps kw ids keys et codec w s (UpdateStage.after next r) := by
  cases h : r with
  | ok a w' => exact hok a w' h
  | error e w' => exact of_unchanged hw (herr e w' h) trivial (Bool.and_false _)

/-- A step that runs a statement that only reads. -/
theorem readsOnly {α : Type} {op : Op α} {next : α → UpdateStage} {w : World} {s : UpdateStage}
    (hw : ProfilesAgree kw ids keys w) (hop : ReadsOnly op)
    (hnext : ∀ a w', op w = .ok a w' →
      (next a).Agrees kw ids keys et c codec ∧ (s.pending && (next a).written) = false) :
    c.StepKeeps kw ids keys et codec w s (UpdateStage.after next (op w)) :=
  after hw (fun a w' h => of_unchanged hw (hop.of_ok h) (hnext a w' h).1 (hnext a w' h).2)
    fun _ _ h => hop.of_error h

/-- A step that runs a statement that writes only tag rows. -/
theorem tagWrite {g : Db → Except Error Db} {next : Unit → UpdateStage} {w : World}
    {s : UpdateStage} (hw : ProfilesAgree kw ids keys w)
    (hg : ∀ db db' : Db, g db = .ok db' → db'.items = db.items ∧ db'.profiles = db.profiles)
    (ht : (next ()).Agrees kw ids keys et c codec) (hn : (s.pending && (next ()).written) = false) :
    c.StepKeeps kw ids keys et codec w s (UpdateStage.after next (execute g w)) := by
  refine after hw (fun _ w' h => ?_) fun _ _ h => execute_eq_error h
  obtain ⟨db, hdb, rfl⟩ := execute_eq_ok h
  exact of_frame hw rfl (hg _ _ hdb).2 (hg _ _ hdb).1 ht hn

end UpdateCall.StepKeeps

theorem UpdateCall.agrees_afterItem {pid : Int} {key : ProfileKey}
    (h : c.Resolved ids keys pid key) :
    (c.afterItem pid key).Agrees kw ids keys et c codec := by
  unfold UpdateCall.afterItem; split
  · exact h
  · trivial

theorem UpdateCall.written_afterItem (pid : Int) (key : ProfileKey) :
    (c.afterItem pid key).written = true := by
  unfold UpdateCall.afterItem; split <;> rfl

/-- One step of a call, from a stage that agrees, keeps what the sessions resolve, leads to a
stage that agrees, and writes the entries only at the call's item statement, as its operation
says. -/
theorem updateStep_keeps (codec : EntryCodec) {w : World} {s : UpdateStage}
    (hw : ProfilesAgree kw ids keys w)
    (hs : s.Agrees kw ids keys et c codec) :
    c.StepKeeps kw ids keys et codec w s (updateStep kw codec et c s w) := by
  cases s with
  | acquiring a =>
    cases a with
    | lookup =>
      simp only [updateStep, acquireStep]
      split
      · rename_i pid key hc
        exact .of_unchanged hw (.refl w) ((hw.cache _ _ _ hc).imp Eq.symm Eq.symm) rfl
      · exact .of_unchanged hw (.refl w) trivial rfl
    | reading =>
      rw [updateStep_reading]
      refine .readsOnly hw (readsOnly_readProfileRow _) fun row w' h => ⟨?_, rfl⟩
      obtain ⟨r, hr, hn, hid, hk⟩ := Db.getProfile_head_mem (readProfileRow_eq_ok h)
      obtain ⟨hi, hkey⟩ := hw.rows r hr
      exact ⟨hid ▸ hn ▸ hi.symm, fun sk key hu => hid ▸ holds_unique ⟨sk, hk ▸ hu⟩ hkey⟩
    | loading pid encKey =>
      rw [updateStep_loading]
      exact .readsOnly hw (readsOnly_loadKey kw encKey) fun key w' h =>
        ⟨⟨hs.1, hs.2 _ _ (loadKey_eq_ok h).1⟩, rfl⟩
    | caching pid key => exact ⟨hw.addProfile hs.1 hs.2, hs, rfl⟩
    | returned pid key => exact .of_unchanged hw (.refl w) hs rfl
    | failed => exact .of_unchanged hw (.refl w) trivial rfl
  | encrypting pid key =>
    refine .readsOnly hw readsOnly_attempt fun _ _ _ => ?_
    split <;> exact ⟨⟨hs, ‹_›⟩, rfl⟩
  | preallocating pid key =>
    refine .readsOnly hw
      (readsOnly_attemptOrPanic.bind fun _ => readsOnly_expiryString (et c.now) _)
      fun str w' h => ⟨⟨hs.1, hs.2, ?_⟩, rfl⟩
    obtain ⟨_, w₁, -, h⟩ := bind_eq_ok.1 h
    exact (expiry_eq_ok h).1
  | storing pid key str =>
    obtain ⟨⟨rfl, rfl⟩, hop, hexp⟩ := hs
    refine .after hw (fun _ w' h => ?_) fun _ _ h => itemStatement_eq_error h
    obtain ⟨hc, hp, he⟩ := itemStatement_eq_ok (c.entry ids) hop h
    suffices ∀ t : UpdateStage, t.written = true → t.Agrees kw ids keys et c codec →
        c.StepKeeps kw ids keys et codec w (.storing _ _ str) (t, w') by
      split
      · exact this _ (c.written_afterItem _ _) (c.agrees_afterItem ⟨rfl, rfl⟩)
      · exact this _ rfl ⟨rfl, rfl⟩
    intro t hwr ht
    refine ⟨hw.of_eq hp hc, ht, ?_⟩
    rw [if_pos (by rw [hwr]; rfl), UpdateCall.held, hexp]
    exact he
  | deletingTags pid key =>
    exact .tagWrite hw (fun _ _ h => by cases h; exact ⟨rfl, rfl⟩) (c.agrees_afterItem hs) rfl
  | findingId pid key =>
    exact .readsOnly hw (readsOnly_selectFirstOrPanic _) fun _ _ _ => ⟨hs, rfl⟩
  | preparing pid key itemId =>
    exact .readsOnly hw readsOnly_attemptOrPanic fun _ _ _ => ⟨⟨hs, List.suffix_refl _⟩, rfl⟩
  | tagging pid key itemId ts =>
    cases ts with
    | nil => exact .of_unchanged hw (.refl w) trivial rfl
    | cons t ts =>
      exact .tagWrite hw (fun _ _ h => by obtain rfl := Db.insertTag_eq_ok h; exact ⟨rfl, rfl⟩)
        ⟨hs.1, (List.suffix_cons t ts).trans hs.2⟩ rfl
  | removing pid key =>
    obtain ⟨⟨rfl, rfl⟩, hop⟩ := hs
    refine .after hw (fun _ w' h => ?_) fun _ _ h => execute_eq_error h
    obtain ⟨db, hdb, rfl⟩ := execute_eq_ok h
    cases hdb
    refine ⟨hw.of_eq rfl rfl, trivial, ?_⟩
    show _ = (w.db.entries codec keys).apply c.operation (c.entry ids) (c.held et)
    rw [hop]
    exact Db.entries_deleteEntryRow w.db (c.entry ids)
  | returned => exact .of_unchanged hw (.refl w) trivial rfl
  | failed => exact .of_unchanged hw (.refl w) trivial rfl

end Keeps

/-! ### Every interleaving -/

namespace UpdateStage

theorem pending_eq_false_of_written {s : UpdateStage} (h : s.written = true) :
    s.pending = false := by
  cases s <;> first | rfl | cases h

theorem pending_or_written {s : UpdateStage} (h : s ≠ .failed) :
    s.pending = true ∨ s.written = true := by
  cases s <;> first | exact .inl rfl | exact .inr rfl | exact absurd rfl h

theorem pending_after {α : Type} {next : α → UpdateStage} (r : EStateM.Result Fault World α)
    (h : ∀ a, (next a).pending = false) : (after next r).1.pending = false := by
  cases r
  · exact h _
  · rfl

end UpdateStage

section Interleaving

variable {kw : KeyWrap} {ids : String → Int} {keys : Int → ProfileKey}
  {et : Int → Int → Except Error String} {codec : EntryCodec}

theorem UpdateCall.pending_afterItem (c : UpdateCall) (pid : Int) (key : ProfileKey) :
    (c.afterItem pid key).pending = false :=
  UpdateStage.pending_eq_false_of_written (c.written_afterItem pid key)

/-- Once its item statement has run, or once it has stopped, a call never goes back to the
stages before it. -/
theorem pending_updateStep (kw : KeyWrap) (codec : EntryCodec)
    (et : Int → Int → Except Error String) (c : UpdateCall) {s : UpdateStage} (w : World)
    (hs : s.pending = false) :
    (updateStep kw codec et c s w).1.pending = false := by
  cases s with
  | deletingTags pid key => exact UpdateStage.pending_after _ fun _ => c.pending_afterItem _ _
  | findingId | preparing => exact UpdateStage.pending_after _ fun _ => rfl
  | tagging pid key itemId ts =>
    cases ts with
    | nil => rfl
    | cons => exact UpdateStage.pending_after _ fun _ => rfl
  | returned | failed => rfl
  | _ => cases hs

/-- A call the log takes is the one that stepped. -/
theorem mem_logged {l : List Nat} {i j : Nat} {c : Prop} [Decidable c] :
    j ∈ (if c then l ++ [i] else l) ↔ j ∈ l ∨ c ∧ j = i := by
  split <;> simp [*]

theorem Entries.applyAll_append (m : Entries) (cs : List UpdateCall) (c : UpdateCall) :
    m.applyAll et ids (cs ++ [c]) =
      (m.applyAll et ids cs).apply c.operation (c.entry ids) (c.held et) := by
  induction cs generalizing m with
  | nil => rfl
  | cons d cs ih => exact ih _

end Interleaving

/-- What every run of the calls from `w₀` keeps: the sessions resolve as `ids` and `keys` say,
every stage agrees, and the entries are those the calls of the log leave, applied in its order;
the log holds each call once, none that has yet to run its item statement, and every call that
has run it and not stopped. -/
structure Updates.Inv (kw : KeyWrap) (ids : String → Int) (keys : Int → ProfileKey)
    (et : Int → Int → Except Error String) (codec : EntryCodec) (calls : Nat → UpdateCall)
    (w₀ : World) (u : Updates) : Prop where
  agree : ProfilesAgree kw ids keys u.world
  stages : ∀ i, (u.stages i).Agrees kw ids keys et (calls i) codec
  entries : u.world.db.entries codec keys =
    (w₀.db.entries codec keys).applyAll et ids (u.log.map calls)
  nodup : u.log.Nodup
  logged : ∀ i ∈ u.log, (u.stages i).pending = false
  written : ∀ i, (u.stages i).written = true → i ∈ u.log

namespace Updates.Inv

variable {kw : KeyWrap} {ids : String → Int} {keys : Int → ProfileKey}
  {et : Int → Int → Except Error String} {codec : EntryCodec} {calls : Nat → UpdateCall}

theorem start {w : World} (hw : ProfilesAgree kw ids keys w) :
    (Updates.start w).Inv kw ids keys et codec calls w :=
  ⟨hw, fun _ => trivial, rfl, List.nodup_nil, fun _ h => absurd h (List.not_mem_nil _),
    fun _ h => by cases h⟩

/-- One step of any call keeps the invariant. -/
theorem step {w₀ : World} {u : Updates} (h : u.Inv kw ids keys et codec calls w₀) (i : Nat) :
    (u.step kw codec et calls i).Inv kw ids keys et codec calls w₀ := by
  have hk := updateStep_keeps codec h.agree (h.stages i)
  have hp := pending_updateStep kw codec et (calls i) u.world (s := u.stages i)
  have hf : u.stages i = .failed →
      (updateStep kw codec et (calls i) (u.stages i) u.world).1 = .failed := fun h => by
    rw [h]; rfl
  unfold Updates.step
  dsimp only
  generalize updateStep kw codec et (calls i) (u.stages i) u.world = r at hk hp hf ⊢
  obtain ⟨t, w'⟩ := r
  dsimp only at hk hp hf ⊢
  refine ⟨hk.agree, fun j => ?_, ?_, ?_, fun j hj => ?_, fun j hj => ?_⟩ <;>
    (try dsimp only at hj) <;> dsimp only
  · rw [Function.update_apply]
    split
    · subst j; exact hk.stage
    · exact h.stages j
  · rw [hk.entries]
    split
    · rw [List.map_append, List.map_singleton, Entries.applyAll_append, h.entries]
    · exact h.entries
  · split
    · rename_i hc
      refine List.nodup_append.2 ⟨h.nodup, List.nodup_singleton i, fun a ha hb => ?_⟩
      rw [h.logged i (List.mem_singleton.1 hb ▸ ha)] at hc
      cases hc
    · exact h.nodup
  · rw [Function.update_apply]
    rcases mem_logged.1 hj with hj | ⟨hc, rfl⟩
    · split
      · subst j; exact hp (h.logged i hj)
      · exact h.logged j hj
    · rw [if_pos rfl]
      exact UpdateStage.pending_eq_false_of_written (Bool.and_eq_true _ _ ▸ hc).2
  · rw [Function.update_apply] at hj
    rw [mem_logged]
    split at hj
    · subst j
      by_cases hpi : (u.stages i).pending = true
      · exact .inr ⟨by rw [hpi, hj]; rfl, rfl⟩
      · have hne : u.stages i ≠ .failed := fun hfl => by rw [hf hfl] at hj; cases hj
        exact .inl (h.written i (by simpa [hpi] using UpdateStage.pending_or_written hne))
    · exact .inl (h.written j hj)

/-- Every run keeps the invariant. -/
theorem run {w₀ : World} {u : Updates} (h : u.Inv kw ids keys et codec calls w₀)
    (schedule : List Nat) :
    (u.run kw codec et calls schedule).Inv kw ids keys et codec calls w₀ := by
  induction schedule generalizing u with
  | nil => exact h
  | cons i schedule ih => exact ih (h.step i)

end Updates.Inv

/-- Calls of `update` from any number of sessions, their statements interleaved in any order and
failed by the environment anywhere, from a store whose cache agrees with its rows. The entries are
those the calls whose item statement has run leave, applied one after another in the order their
item statements ran, each call once; every call that has returned is among them, no call that has
yet to run its item statement is, and the sessions still resolve as they did. -/
theorem concurrent_updates_serialize {kw : KeyWrap} {ids : String → Int}
    {keys : Int → ProfileKey} {et : Int → Int → Except Error String} {codec : EntryCodec}
    {w : World} (hw : ProfilesAgree kw ids keys w) (calls : Nat → UpdateCall)
    (schedule : List Nat) :
    let u := (Updates.start w).run kw codec et calls schedule
    u.world.db.entries codec keys = (w.db.entries codec keys).applyAll et ids (u.log.map calls) ∧
      u.log.Nodup ∧ (∀ i, u.stages i = .returned → i ∈ u.log) ∧
      (∀ i ∈ u.log, (u.stages i).pending = false) ∧ ProfilesAgree kw ids keys u.world := by
  have h : ((Updates.start w).run kw codec et calls schedule).Inv kw ids keys et codec calls w :=
    (Updates.Inv.start hw).run schedule
  exact ⟨h.entries, h.nodup, fun i hi => h.written i (by rw [hi]; rfl), h.logged, h.agree⟩

/-- The `Insert` of entry `[1]/[2]` of profile `a` by one session, and a `Replace` of it by the
others. -/
def insertAndReplaceA : Nat → UpdateCall
  | 0 => insertA
  | _ => replaceA

theorem insert_and_replace_interleaved :
    ProfilesAgree KeyWrap.symbolic (fun _ => 1) (fun _ => ⟨7⟩) profileACreated ∧
      let u := (Updates.start profileACreated).run KeyWrap.symbolic EntryCodec.plain
        (fun _ _ => .ok "") insertAndReplaceA [0, 1, 0, 1, 0, 1, 0, 1, 0, 1, 0, 0, 0, 0]
      u.world.db.entries EntryCodec.plain (fun _ => ⟨7⟩) =
          (profileACreated.db.entries EntryCodec.plain (fun _ => ⟨7⟩)).applyAll (fun _ _ => .ok "")
            (fun _ => 1) (u.log.map insertAndReplaceA) ∧
        u.log.Nodup ∧ (∀ i, u.stages i = .returned → i ∈ u.log) ∧
        (∀ i ∈ u.log, (u.stages i).pending = false) ∧
        ProfilesAgree KeyWrap.symbolic (fun _ => 1) (fun _ => ⟨7⟩) u.world :=
  ⟨profilesAgree_profileACreated,
    concurrent_updates_serialize profilesAgree_profileACreated insertAndReplaceA _⟩

/-! ### Tag rows under every interleaving -/

section Ids

variable (codec : EntryCodec) (keys : Int → ProfileKey)

/-- The item id `x` has been given out, and every row under it is a row of the entry `e`. -/
def Db.IdOf (db : Db) (x : Int) (e : EntryId) : Prop :=
  x < db.nextItemId ∧ ∀ r ∈ db.items, r.id = x → r.identity = e.columns codec keys

end Ids

/-- `db'` follows `db`: it numbers rows by the same rule, gives no item id back, and a row of
`db'` under an id `db` had given out is a row of `db` under that id, with the same identity. -/
structure Db.Grows (db db' : Db) : Prop where
  rule : db'.reusesIds = db.reusesIds
  counter : db.nextItemId ≤ db'.nextItemId
  rows : ∀ r' ∈ db'.items, r'.id < db.nextItemId →
    ∃ r ∈ db.items, r.id = r'.id ∧ r.identity = r'.identity

/-- The item id a stage holds: the one `GET_ITEM_ID` found. -/
def UpdateStage.heldId : UpdateStage → Option Int
  | .preparing _ _ x | .tagging _ _ x _ => some x
  | _ => none

section Grows

variable {codec : EntryCodec} {keys : Int → ProfileKey}

theorem Db.Grows.of_subset {db db' : Db} (hr : db'.reusesIds = db.reusesIds)
    (hi : db'.items ⊆ db.items) (hn : db'.nextItemId = db.nextItemId) : db.Grows db' :=
  ⟨hr, hn.ge, fun r hr _ => ⟨r, hi hr, rfl, rfl⟩⟩

theorem Db.IdOf.grows {db db' : Db} {x : Int} {e : EntryId} (h : db.IdOf codec keys x e)
    (hg : db.Grows db') : db'.IdOf codec keys x e := by
  refine ⟨lt_of_lt_of_le h.1 hg.counter, fun r' hr' hid => ?_⟩
  obtain ⟨r, hr, hrid, hri⟩ := hg.rows r' hr' (hid ▸ h.1)
  exact hri ▸ h.2 r hr (hrid.trans hid)

/-- An id `GET_ITEM_ID` finds for an entry is the id of that entry's row only. -/
theorem Db.idOf_of_mem_getItemId {db : Db} {e : EntryId} {x : Int}
    (h : x ∈ db.getItemId e.profileId e.kind.toI16
      (codec.encryptCategory (keys e.profileId) e.category)
      (codec.encryptName (keys e.profileId) e.name)) : db.IdOf codec keys x e := by
  obtain ⟨r, hr, hid, rfl⟩ := Db.mem_getItemId.1 h
  refine ⟨db.items_id_lt r hr, fun r' hr' hrr => ?_⟩
  obtain rfl := List.inj_on_of_nodup_map db.items_id_nodup hr' hr hrr
  exact hid

/-- In a schema that gives out no id twice, `INSERT_ITEM` gives its row the counter's id, which no
row had, and writes no tag row. -/
theorem Db.insertItem_grows {db db' : Db} {pid kind : Int} {category name value : Bytes}
    {expiry : Option String} (hr : db.reusesIds = false)
    (h : db.insertItem pid kind category name value expiry = .ok db') :
    db.Grows db' ∧ db'.itemsTags = db.itemsTags := by
  unfold Db.insertItem at h
  split at h
  · cases h
  · cases h
    have hnew : db.newItemId = db.nextItemId := by simp [Db.newItemId, nextId, hr]
    refine ⟨⟨rfl, Int.le_max_left _ _, fun r hm hlt => ?_⟩, rfl⟩
    rcases List.mem_append.1 hm with hm | hm
    · exact ⟨r, hm, rfl, rfl⟩
    · rw [List.mem_singleton.1 hm, hnew] at hlt; exact absurd hlt (lt_irrefl _)

/-- `UPDATE_ITEM` keeps every row's id and identity. -/
theorem Db.updateItem_grows (db : Db) (value : Bytes) (expiry : Option String) (pid kind : Int)
    (category name : Bytes) : db.Grows (db.updateItem value expiry pid kind category name) := by
  refine ⟨rfl, le_refl _, fun r' hr' _ => ?_⟩
  obtain ⟨r, hr, rfl⟩ := List.mem_map.1 hr'
  exact ⟨r, hr, by simp, by simp⟩

end Grows

section TagStep

variable (codec : EntryCodec) (c : UpdateCall)

/-- What one step of the call `c` at stage `s` in `w` does to item ids and tag rows: it gives no
id back and keeps every old id's rows, it adds no tag row but the next one of a `tagging` stage,
under the id that stage holds, and the id the new stage holds is the old stage's, or one
`GET_ITEM_ID` has just found for the call's columns. -/
structure UpdateCall.TagStep (w : World) (s : UpdateStage) (p : UpdateStage × World) : Prop where
  grows : w.db.Grows p.2.db
  tagRows : ∀ t ∈ p.2.db.itemsTags, t ∈ w.db.itemsTags ∨
    ∃ pid key itemId x rest, s = .tagging pid key itemId (x :: rest) ∧ t = tagRow itemId x
  held : ∀ x, p.1.heldId = some x → s.heldId = some x ∨ ∃ pid key, s = .findingId pid key ∧
    x ∈ p.2.db.getItemId pid c.kind.toI16 (codec.encryptCategory key c.category)
      (codec.encryptName key c.name)

end TagStep

section TagSteps

variable {kw : KeyWrap} {codec : EntryCodec} {et : Int → Int → Except Error String} {c : UpdateCall}

namespace UpdateCall.TagStep

/-- A step that writes no item row and drops tag rows at most, to a stage holding no id or the
old stage's. -/
theorem of_frame {w w' : World} {s t : UpdateStage} (hr : w'.db.reusesIds = w.db.reusesIds)
    (hi : w'.db.items ⊆ w.db.items) (hn : w'.db.nextItemId = w.db.nextItemId)
    (ht : w'.db.itemsTags ⊆ w.db.itemsTags) (hh : t.heldId = none ∨ t.heldId = s.heldId) :
    c.TagStep codec w s (t, w') := by
  refine ⟨.of_subset hr hi hn, fun r hr => .inl (ht hr), fun x hx => ?_⟩
  rcases hh with hh | hh <;> rw [hh] at hx
  · cases hx
  · exact .inl hx

theorem of_unchanged {w w' : World} {s t : UpdateStage} (hu : Unchanged w w')
    (hh : t.heldId = none ∨ t.heldId = s.heldId) : c.TagStep codec w s (t, w') :=
  of_frame (by rw [hu.db]) (hu.db ▸ List.Subset.refl _) (by rw [hu.db])
    (hu.db ▸ List.Subset.refl _) hh

theorem after {α : Type} {r : EStateM.Result Fault World α} {next : α → UpdateStage} {w : World}
    {s : UpdateStage} (hok : ∀ a w', r = .ok a w' → c.TagStep codec w s (next a, w'))
    (herr : ∀ e w', r = .error e w' → Unchanged w w') :
    c.TagStep codec w s (UpdateStage.after next r) := by
  cases h : r with
  | ok a w' => exact hok a w' h
  | error e w' => exact of_unchanged (herr e w' h) (.inl rfl)

theorem readsOnly {α : Type} {op : Op α} {next : α → UpdateStage} {w : World} {s : UpdateStage}
    (hop : ReadsOnly op) (hh : ∀ a, (next a).heldId = none ∨ (next a).heldId = s.heldId) :
    c.TagStep codec w s (UpdateStage.after next (op w)) :=
  after (fun a _ h => of_unchanged (hop.of_ok h) (hh a)) fun _ _ h => hop.of_error h

/-- A step that runs a statement that drops item rows and tag rows at most. -/
theorem dropsRows {g : Db → Db} {next : Unit → UpdateStage} {w : World} {s : UpdateStage}
    (hg : ∀ db : Db, (g db).reusesIds = db.reusesIds ∧ (g db).items ⊆ db.items ∧
      (g db).nextItemId = db.nextItemId ∧ (g db).itemsTags ⊆ db.itemsTags)
    (hh : (next ()).heldId = none ∨ (next ()).heldId = s.heldId) :
    c.TagStep codec w s (UpdateStage.after next (execute (fun db => .ok (g db)) w)) := by
  refine after (fun _ w' h => ?_) fun _ _ h => execute_eq_error h
  obtain ⟨db, hdb, rfl⟩ := execute_eq_ok h
  cases hdb
  obtain ⟨hr, hi, hn, ht⟩ := hg w.db
  exact of_frame hr hi hn ht hh

end UpdateCall.TagStep

theorem itemStatement_tagStep {op : EntryOperation} {pid : Int} {kind : EntryKind}
    {encCategory encName encValue : Bytes} {str : String} {w w' : World} {u : Unit}
    (hr : w.db.reusesIds = false)
    (h : itemStatement op pid kind encCategory encName encValue str w = .ok u w') :
    w.db.Grows w'.db ∧ w'.db.itemsTags = w.db.itemsTags := by
  rw [itemStatement_eq] at h
  split at h <;> obtain ⟨db, hdb, rfl⟩ := execute_eq_ok h
  · exact Db.insertItem_grows hr hdb
  · cases hdb; exact ⟨Db.updateItem_grows _ _ _ _ _ _ _, rfl⟩

/-- In a schema that gives out no id twice, every step of a call keeps item ids and adds tag rows
only at its `INSERT_TAG`s. -/
theorem updateStep_tagStep (s : UpdateStage) {w : World} (hr : w.db.reusesIds = false) :
    c.TagStep codec w s (updateStep kw codec et c s w) := by
  cases s with
  | acquiring a =>
    cases a with
    | lookup =>
      simp only [updateStep, acquireStep]
      split <;> exact .of_unchanged (.refl w) (.inl rfl)
    | reading =>
      rw [updateStep_reading]
      exact .readsOnly (readsOnly_readProfileRow _) fun _ => .inl rfl
    | loading pid encKey =>
      rw [updateStep_loading]
      exact .readsOnly (readsOnly_loadKey kw encKey) fun _ => .inl rfl
    | caching | returned | failed =>
      exact .of_frame rfl (List.Subset.refl _) rfl (List.Subset.refl _) (.inl rfl)
  | encrypting pid key =>
    exact .readsOnly readsOnly_attempt fun _ => .inl (by split <;> rfl)
  | preallocating pid key =>
    exact .readsOnly (readsOnly_attemptOrPanic.bind fun _ => readsOnly_expiryString (et c.now) _)
      fun _ => .inl rfl
  | storing pid key str =>
    refine .after (fun _ w' h => ?_) fun _ _ h => itemStatement_eq_error h
    obtain ⟨hg, ht⟩ := itemStatement_tagStep hr h
    refine ⟨hg, fun t h => .inl (ht ▸ h), fun x hx => ?_⟩
    split at hx
    · unfold UpdateCall.afterItem at hx
      split at hx <;> cases hx
    · cases hx
  | deletingTags pid key =>
    refine .dropsRows (fun _ => ⟨rfl, List.Subset.refl _, rfl, (List.filter_sublist _).subset⟩)
      (.inl ?_)
    unfold UpdateCall.afterItem
    split <;> rfl
  | findingId pid key =>
    refine .after (fun itemId w' h => ?_) fun _ _ h => (readsOnly_selectFirstOrPanic _).of_error h
    obtain ⟨hid, hu⟩ := selectFirstOrPanic_eq_ok h
    refine ⟨.of_subset (by rw [hu.db]) (hu.db ▸ List.Subset.refl _) (by rw [hu.db]),
      fun t ht => .inl (hu.db ▸ ht), fun x hx => .inr ⟨pid, key, rfl, ?_⟩⟩
    cases hx
    rw [hu.db]
    exact List.mem_of_mem_head? hid
  | preparing pid key itemId => exact .readsOnly readsOnly_attemptOrPanic fun _ => .inr rfl
  | tagging pid key itemId ts =>
    cases ts with
    | nil => exact .of_unchanged (.refl w) (.inl rfl)
    | cons x rest =>
      refine .after (fun _ w' h => ?_) fun _ _ h => execute_eq_error h
      obtain ⟨db, hdb, rfl⟩ := execute_eq_ok h
      obtain rfl := Db.insertTag_eq_ok hdb
      refine ⟨.of_subset rfl (List.Subset.refl _) rfl, fun t ht => ?_, fun _ hx => .inl hx⟩
      rcases List.mem_append.1 ht with ht | ht
      · exact .inl ht
      · exact .inr ⟨pid, key, itemId, x, rest, rfl, List.mem_singleton.1 ht⟩
  | removing pid key =>
    exact .dropsRows
      (fun db =>
        ⟨rfl, (List.filter_sublist _).subset, rfl, Db.deleteItem_itemsTags_subset db _ _ _ _⟩)
      (.inl rfl)
  | returned | failed => exact .of_unchanged (.refl w) (.inl rfl)

end TagSteps

/-- What every run of the calls from `w₀` keeps of the tag rows, in a schema that gives out no id
twice: the id a call holds is its entry's, and every tag row was there at the start or is one of
some call's encrypted tags, under an id of that call's entry. -/
structure Updates.TagInv (codec : EntryCodec) (keys : Int → ProfileKey) (ids : String → Int)
    (calls : Nat → UpdateCall) (w₀ : World) (u : Updates) : Prop where
  rule : u.world.db.reusesIds = false
  held : ∀ i x, (u.stages i).heldId = some x → u.world.db.IdOf codec keys x ((calls i).entry ids)
  tags : ∀ t ∈ u.world.db.itemsTags, t ∈ w₀.db.itemsTags ∨ ∃ i,
    t.decode ∈ ((calls i).tags.getD []).map
        (codec.encryptTag (keys ((calls i).entry ids).profileId)) ∧
      u.world.db.IdOf codec keys t.itemId ((calls i).entry ids)

namespace Updates.TagInv

variable {kw : KeyWrap} {ids : String → Int} {keys : Int → ProfileKey}
  {et : Int → Int → Except Error String} {codec : EntryCodec} {calls : Nat → UpdateCall}

theorem start {w : World} (hr : w.db.reusesIds = false) :
    (Updates.start w).TagInv codec keys ids calls w :=
  ⟨hr, fun _ _ h => (nomatch h), fun _ ht => .inl ht⟩

/-- One step of any call keeps the tag invariant. -/
theorem step {w₀ : World} {u : Updates} (hi : u.Inv kw ids keys et codec calls w₀)
    (h : u.TagInv codec keys ids calls w₀) (i : Nat) :
    (u.step kw codec et calls i).TagInv codec keys ids calls w₀ := by
  have hs := hi.stages i
  have ht : (calls i).TagStep codec u.world (u.stages i)
      (updateStep kw codec et (calls i) (u.stages i) u.world) := updateStep_tagStep _ h.rule
  unfold Updates.step
  dsimp only
  generalize updateStep kw codec et (calls i) (u.stages i) u.world = r at ht
  obtain ⟨st, w'⟩ := r
  dsimp only at ht ⊢
  refine ⟨ht.grows.rule.trans h.rule, fun j x hx => ?_, fun t hmem => ?_⟩
  · dsimp only at hx ⊢
    rw [Function.update_apply] at hx
    split at hx
    · subst j
      rcases ht.held x hx with hold | ⟨pid, key, hsi, hmem⟩
      · exact (h.held i x hold).grows ht.grows
      · rw [hsi] at hs
        obtain ⟨rfl, rfl⟩ := hs
        exact Db.idOf_of_mem_getItemId hmem
    · exact (h.held j x hx).grows ht.grows
  · dsimp only at hmem ⊢
    rcases ht.tagRows t hmem with hold | ⟨pid, key, itemId, x, rest, hsi, rfl⟩
    · rcases h.tags t hold with h₀ | ⟨j, hj, hid⟩
      · exact .inl h₀
      · exact .inr ⟨j, hj, hid.grows ht.grows⟩
    · have hid := h.held i itemId (by rw [hsi]; rfl)
      rw [hsi] at hs
      obtain ⟨⟨rfl, rfl⟩, hsuf⟩ := hs
      refine .inr ⟨i, ?_, hid.grows ht.grows⟩
      rw [TagRow.decode_tagRow]
      exact hsuf.subset (List.mem_cons_self x rest)

/-- Every run keeps the tag invariant. -/
theorem run {w₀ : World} {u : Updates} (hi : u.Inv kw ids keys et codec calls w₀)
    (h : u.TagInv codec keys ids calls w₀) (schedule : List Nat) :
    (u.run kw codec et calls schedule).TagInv codec keys ids calls w₀ := by
  induction schedule generalizing u with
  | nil => exact h
  | cons i schedule ih => exact ih (hi.step i) (h.step hi i)

end Updates.TagInv

/-- Calls of `update` from any number of sessions, their statements interleaved in any order and
failed by the environment anywhere, from a store whose cache agrees with its rows, in a schema
that gives out no item id twice. Every tag an entry shows is a tag it had at the start or a tag a
call on that same entry was given: a tag a call inserts never shows on another entry, even when
the call's entry was removed and written again between its `GET_ITEM_ID` and its `INSERT_TAG`s. -/
theorem concurrent_updates_keep_tags_apart {kw : KeyWrap} {ids : String → Int}
    {keys : Int → ProfileKey} {et : Int → Int → Except Error String} {codec : EntryCodec}
    {w : World} (hw : ProfilesAgree kw ids keys w) (hr : w.db.reusesIds = false)
    (calls : Nat → UpdateCall) (schedule : List Nat) :
    let u := (Updates.start w).run kw codec et calls schedule
    ∀ e tags, u.world.db.entryTags codec keys e = some tags → ∀ x ∈ tags,
      (∃ t ∈ w.db.itemsTags, x = codec.decryptTag (keys e.profileId) t.decode) ∨
        ∃ i, (calls i).entry ids = e ∧ ∃ tag ∈ (calls i).tags.getD [], x = some tag := by
  intro u e tags he x hx
  have h : u.TagInv codec keys ids calls w :=
    Updates.TagInv.run (Updates.Inv.start hw) (Updates.TagInv.start hr) schedule
  obtain ⟨r, hr, rfl⟩ := Option.map_eq_some'.1 he
  obtain ⟨t, ht, rfl⟩ := List.mem_map.1 hx
  obtain ⟨hmem, hrid⟩ := List.mem_filter.1 ht
  rcases h.tags t hmem with h₀ | ⟨i, hdec, hid⟩
  · exact .inl ⟨t, h₀, rfl⟩
  obtain ⟨hr', hcol⟩ := Db.itemRow_identity hr
  obtain rfl : (calls i).entry ids = e :=
    EntryId.columns_injective ((hid.2 r hr' (of_decide_eq_true hrid).symm).symm.trans hcol)
  obtain ⟨tag, htag, hdt⟩ := List.mem_map.1 hdec
  exact .inr ⟨i, rfl, tag, htag, by rw [← hdt, codec.decryptTag_encryptTag]⟩

theorem insert_and_replace_tags_apart :
    ProfilesAgree KeyWrap.symbolic (fun _ => 1) (fun _ => ⟨7⟩) profileACreated ∧
      profileACreated.db.reusesIds = false ∧
      let u := (Updates.start profileACreated).run KeyWrap.symbolic EntryCodec.plain
        (fun _ _ => .ok "") insertAndReplaceA [0, 1, 0, 1, 0, 1, 0, 1, 0, 1, 0, 0, 0, 0]
      ∀ e tags, u.world.db.entryTags EntryCodec.plain (fun _ => ⟨7⟩) e = some tags → ∀ x ∈ tags,
        (∃ t ∈ profileACreated.db.itemsTags, x = EntryCodec.plain.decryptTag ⟨7⟩ t.decode) ∨
          ∃ i, (insertAndReplaceA i).entry (fun _ => 1) = e ∧
            ∃ tag ∈ (insertAndReplaceA i).tags.getD [], x = some tag :=
  ⟨profilesAgree_profileACreated, rfl,
    concurrent_updates_keep_tags_apart profilesAgree_profileACreated rfl insertAndReplaceA _⟩

/-! ### What stops a call when the environment fails nothing -/

/-- The statements of the call `c` at stage `s` that the tables, the cache or the clock of `w`
refuse: `GET_PROFILE` finding no row, `load_key` not opening the row's key, an expiry that does
not format, the `INSERT_ITEM` of an entry that is there, `GET_ITEM_ID` for an entry that is not,
and an `INSERT_TAG` the foreign key refuses, under an id whose row another call has deleted. -/
def UpdateCall.Refused (kw : KeyWrap) (codec : EntryCodec) (keys : Int → ProfileKey)
    (ids : String → Int) (et : Int → Int → Except Error String) (c : UpdateCall) :
    UpdateStage → World → Prop
  | .acquiring .reading, w => w.db.getProfile c.session.profile = []
  | .acquiring (.loading _ encKey), w => ∃ e, kw.unwrap w.keyCache.storeKey encKey = .error e
  | .preallocating _ _, _ => ∃ ms e, c.expiryMs = some ms ∧ et c.now ms = .error e
  | .storing _ _ _, w => c.operation = .insert ∧ w.db.entries codec keys (c.entry ids) ≠ none
  | .findingId _ _, w => w.db.entries codec keys (c.entry ids) = none
  | .tagging _ _ itemId (_ :: _), w =>
    w.db.cascadeTags = true ∧ itemId ∉ w.db.items.map ItemRow.id
  | _, _ => False

section Stops

variable {kw : KeyWrap} {ids : String → Int} {keys : Int → ProfileKey}
  {et : Int → Int → Except Error String} {codec : EntryCodec} {c : UpdateCall}

theorem quiet_of_ok {s t : UpdateStage} {w w' : World} (hw' : w'.faults = [])
    (ht : t ≠ .failed) (hs : s ≠ .failed) (hr : ¬ c.Refused kw codec keys ids et s w) :
    (t, w').2.faults = [] ∧
      ((t, w').1 = .failed ↔ s = .failed ∨ c.Refused kw codec keys ids et s w) :=
  ⟨hw', iff_of_false ht fun h => h.elim hs hr⟩

theorem quiet_of_refused {s : UpdateStage} {w w' : World} (hw' : w'.faults = [])
    (hr : c.Refused kw codec keys ids et s w) :
    (UpdateStage.failed, w').2.faults = [] ∧
      ((UpdateStage.failed, w').1 = .failed ↔ s = .failed ∨ c.Refused kw codec keys ids et s w) :=
  ⟨hw', iff_of_true rfl (.inr hr)⟩

theorem after_execute_of_faults_nil (next : Unit → UpdateStage)
    (f : Db → Except Error Db) {w : World} (hf : w.faults = []) :
    UpdateStage.after next (execute f w) = match f w.db with
      | .ok db => (next (), { w with db }) | .error _ => (.failed, w) := by
  rw [execute_apply, World.fault_of_faults_nil hf, World.pop_of_faults_nil hf]
  cases f w.db <;> rfl

/-- With no failure from the environment, a step of a call that agrees keeps the environment
quiet, and stops the call exactly when its statement is refused. -/
theorem updateStep_of_faults_nil {w : World} {s : UpdateStage} (hf : w.faults = [])
    (hs : s.Agrees kw ids keys et c codec) :
    (updateStep kw codec et c s w).2.faults = [] ∧ ((updateStep kw codec et c s w).1 = .failed ↔
      s = .failed ∨ c.Refused kw codec keys ids et s w) := by
  cases s with
  | acquiring a =>
    cases a with
    | lookup =>
      simp only [updateStep, acquireStep]
      split <;> exact quiet_of_ok hf nofun nofun id
    | reading =>
      rw [updateStep_reading, readProfileRow_of_faults_nil _ hf]
      split <;> rename_i h
      · exact quiet_of_ok hf nofun nofun fun hr => by
          simp only [UpdateCall.Refused] at hr; rw [hr] at h; cases h
      · exact quiet_of_refused hf (List.head?_eq_none_iff.1 h)
    | loading pid encKey =>
      rw [updateStep_loading, loadKey_of_faults_nil _ _ hf]
      split <;> rename_i h
      · exact quiet_of_ok hf nofun nofun fun ⟨e, he⟩ => by rw [he] at h; cases h
      · exact quiet_of_refused hf ⟨_, h⟩
    | caching | returned => exact quiet_of_ok hf nofun nofun id
    | failed => exact hs.elim
  | encrypting pid key =>
    simp only [updateStep, attempt_of_faults_nil hf]
    exact quiet_of_ok hf (by split <;> nofun) nofun id
  | preallocating pid key =>
    simp only [updateStep, bind_apply, attemptOrPanic_of_faults_nil hf]
    cases hms : c.expiryMs with
    | none =>
      exact quiet_of_ok hf nofun nofun fun ⟨_, _, h, _⟩ => by rw [hms] at h; cases h
    | some ms =>
      cases het : et c.now ms with
      | ok str =>
        simp only [expiryString, het, check_ok]
        exact quiet_of_ok hf nofun nofun fun ⟨_, e, h, he⟩ => by
          rw [hms] at h; cases h; rw [het] at he; cases he
      | error e =>
        simp only [expiryString, het, check_error]
        exact quiet_of_refused hf ⟨ms, e, hms, het⟩
  | storing pid key str =>
    obtain ⟨⟨rfl, rfl⟩, hop, -⟩ := hs
    simp only [updateStep, itemStatement_eq]
    generalize (if str.isEmpty then none else some str : Option String) = expiry
    cases hop' : c.operation with
    | insert =>
      simp only [eq_self_iff_true, if_true, after_execute_of_faults_nil _ _ hf]
      split <;> rename_i h
      · exact quiet_of_ok hf (by unfold UpdateCall.afterItem; split <;> nofun) nofun
          fun ⟨_, hne⟩ => hne ((Db.insertEntryRow_admitted _ _).1 ⟨_, h⟩)
      · refine quiet_of_refused hf ⟨hop', fun habs => ?_⟩
        obtain ⟨_, h'⟩ := (Db.insertEntryRow_admitted (c.value.getD []) expiry).2 habs
        cases h.symm.trans h'
    | replace =>
      simp only [reduceCtorEq, if_false, execute_ok_of_faults_nil _ hf, UpdateStage.after]
      refine ⟨hf, iff_of_false id (Or.rec id fun hr => ?_)⟩
      simp only [UpdateCall.Refused, hop', reduceCtorEq, false_and] at hr
    | remove => exact absurd hop' hop
  | deletingTags pid key =>
    simp only [updateStep, execute_ok_of_faults_nil _ hf]
    exact quiet_of_ok hf (by unfold UpdateCall.afterItem; split <;> nofun) nofun id
  | findingId pid key =>
    obtain ⟨rfl, rfl⟩ := hs
    simp only [updateStep, selectFirstOrPanic_of_faults_nil _ hf]
    split <;> rename_i h
    · refine quiet_of_ok hf nofun nofun fun hr => ?_
      have hid : w.db.entryItemId codec keys (c.entry ids) = some _ := h
      rw [Db.entryItemId_eq, Option.map_eq_none'.1 hr] at hid
      cases hid
    · refine quiet_of_refused hf ?_
      have hid : w.db.entryItemId codec keys (c.entry ids) = none := h
      rw [Db.entryItemId_eq, Option.map_eq_none'] at hid
      show Option.map _ (w.db.itemRow codec keys (c.entry ids)) = none
      rw [hid]; rfl
  | preparing pid key itemId =>
    simp only [updateStep, attemptOrPanic_of_faults_nil hf]
    exact quiet_of_ok hf nofun nofun id
  | tagging pid key itemId ts =>
    cases ts with
    | nil => exact quiet_of_ok hf nofun nofun id
    | cons t ts =>
      simp only [updateStep, after_execute_of_faults_nil _ _ hf]
      by_cases h : w.db.cascadeTags = true ∧ itemId ∉ w.db.items.map ItemRow.id
      · simp only [Db.insertTag, if_pos h]
        exact ⟨hf, iff_of_true trivial (.inr h)⟩
      · simp only [Db.insertTag, if_neg h]
        exact quiet_of_ok hf nofun nofun h
  | removing pid key =>
    simp only [updateStep, execute_ok_of_faults_nil _ hf]
    exact quiet_of_ok hf nofun nofun id
  | returned => exact quiet_of_ok hf nofun nofun id
  | failed => exact ⟨hf, iff_of_true rfl (.inl rfl)⟩

/-- With no failure from the environment, no interleaving of calls that agree brings one. -/
theorem Updates.faults_run_of_nil {calls : Nat → UpdateCall} {w₀ : World} {u : Updates}
    (h : u.Inv kw ids keys et codec calls w₀) (hf : u.world.faults = []) (schedule : List Nat) :
    (u.run kw codec et calls schedule).world.faults = [] := by
  induction schedule generalizing u with
  | nil => exact hf
  | cons i schedule ih => exact ih (h.step i) (updateStep_of_faults_nil hf (h.stages i)).1

end Stops

/-- Calls of `update` from any number of sessions, their statements interleaved in any order, from
a store whose cache agrees with its rows and with an environment that fails nothing: the next
statement of a call that has not stopped stops it exactly when the tables, the cache or the clock
refuse it. Under interleaving that is also the `INSERT_ITEM` of an entry another call has just
written, and, where the foreign key of `items_tags` cascades, an `INSERT_TAG` under an item another
call has just deleted. -/
theorem concurrent_update_stops_exactly_when {kw : KeyWrap} {ids : String → Int}
    {keys : Int → ProfileKey} {et : Int → Int → Except Error String} {codec : EntryCodec}
    {w : World} (hw : ProfilesAgree kw ids keys w) (hf : w.faults = []) (calls : Nat → UpdateCall)
    (schedule : List Nat) (i : Nat) :
    let u := (Updates.start w).run kw codec et calls schedule
    u.stages i ≠ .failed → ((u.step kw codec et calls i).stages i = .failed ↔
      (calls i).Refused kw codec keys ids et (u.stages i) u.world) := by
  intro u hi
  have h : u.Inv kw ids keys et codec calls w := (Updates.Inv.start hw).run schedule
  have hu : u.world.faults = [] := Updates.faults_run_of_nil (Updates.Inv.start hw) hf schedule
  simp only [Updates.step, Function.update_same]
  exact (updateStep_of_faults_nil hu (h.stages i)).2.trans (or_iff_right hi)

/-- Two sessions each inserting entry `[1]/[2]` of profile `a`. -/
def twoInsertsA : Nat → UpdateCall := fun _ => insertA

theorem second_insert_refused :
    let u := (Updates.start profileACreated).run KeyWrap.symbolic EntryCodec.plain
      (fun _ _ => .ok "") twoInsertsA [0, 1, 0, 1, 0, 1, 0]
    u.stages 1 ≠ .failed ∧ ((u.step KeyWrap.symbolic EntryCodec.plain (fun _ _ => .ok "")
      twoInsertsA 1).stages 1 = .failed ↔ (twoInsertsA 1).Refused KeyWrap.symbolic
        EntryCodec.plain (fun _ => ⟨7⟩) (fun _ => 1) (fun _ _ => .ok "") (u.stages 1) u.world) :=
  have hi : ((Updates.start profileACreated).run KeyWrap.symbolic EntryCodec.plain
      (fun _ _ => .ok "") twoInsertsA [0, 1, 0, 1, 0, 1, 0]).stages 1 ≠ .failed := by decide
  ⟨hi, concurrent_update_stops_exactly_when profilesAgree_profileACreated rfl twoInsertsA _ 1 hi⟩

end AskarOdbc
