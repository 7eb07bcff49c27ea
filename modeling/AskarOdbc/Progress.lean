import AskarOdbc.Atomicity

/-! What the calls that write do when the environment fails nothing. A call of `update`, from a
store whose cache agrees with its profile rows and on a session profile that `acquire_key` can
open, returns exactly when the tables admit every statement of its operation, and it then ends in
the tables `Db.applyUpdate` gives (`update_returns_iff`). Read over the entry store: a `Remove`
always returns, an `Insert` exactly when its entry is absent, and a `Replace` exactly when its
entry is there or it has no tag list, each of these two once its expiry formats
(`update_returns_exactly_when`). So the runs `updateAll_refines` is about are the runs of calls
the tables admit, and no call the tables admit is lost to a panic. A `rekey` returns exactly when
every profile row opens under the cache's store key (`rekey_returns_iff`): once a rekey to
another store key has re-wrapped a row, no rekey returns, whatever the environment does. A
`create_profile` returns exactly when its name is free, and otherwise stops with the unique
constraint's error (`create_profile_returns_iff`); a `remove_profile` always returns, answering
whether the name had a profile (`remove_profile_answers`). -/

namespace AskarOdbc

open Op

variable {codec : EntryCodec} {keys : Int → ProfileKey} {et : Int → Except Error String}
  {kw : KeyWrap} {ids : String → Int}

/-! ### `acquire_key` -/

/-- What `acquire_key` needs to return when nothing fails: the profile is cached, or it has a row
whose stored key opens under the cache's store key. -/
def Opens (kw : KeyWrap) (n : String) (w : World) : Prop :=
  (w.keyCache.getProfile n).isSome ∨
    ∃ r ∈ w.db.profiles, r.name = n ∧ ∃ k, kw.unwrap w.keyCache.storeKey r.profileKey = .ok k

/-- With no failure to come, `acquire_key` on a profile that opens returns the pair `ids` and
`keys` give it, and writes no table. -/
theorem acquireKey_returns {s : OdbcSession} {w : World} (hw : ProfilesAgree kw ids keys w)
    (hf : w.faults = []) (ho : Opens kw s.profile w) :
    ∃ w₁, acquireKey kw s w = .ok (ids s.profile, keys (ids s.profile)) w₁ ∧
      w₁.db = w.db ∧ w₁.faults = [] := by
  rw [acquireKey_eq, bind_apply, get_apply]
  dsimp only
  cases hc : w.keyCache.getProfile s.profile with
  | some p =>
    obtain ⟨pid, key⟩ := p
    obtain ⟨rfl, rfl⟩ := hw.cache _ _ _ hc
    exact ⟨w, rfl, rfl, hf⟩
  | none =>
    obtain ⟨r, hr, hn, k, hk⟩ := ho.resolve_left (by simp [hc])
    obtain ⟨hid, hkey⟩ := hw.rows r hr
    rw [← hn, hid, ← holds_unique ⟨_, hk⟩ hkey]
    simp only [bind_apply, readProfileRow_of_faults_nil _ hf, Db.getProfile_of_mem hr,
      List.head?_cons, loadKey_of_faults_nil _ _ hf, hk, modifyCache_apply, pure_apply]
    exact ⟨_, rfl, rfl, hf⟩

/-! ### The statements of `update` -/

theorem insertTags_of_faults_nil {itemId : Int} {ts : List EncEntryTag} {w : World} {db' : Db}
    (h : w.faults = []) (hdb : w.db.insertTagRows itemId ts = .ok db') :
    insertTags itemId ts w = .ok () { w with db := db' } := by
  induction ts generalizing w with
  | nil => cases hdb; rfl
  | cons t ts ih =>
    rw [Db.insertTagRows] at hdb
    cases ht : w.db.insertTag itemId t.name t.value (if t.plaintext then 1 else 0) with
    | error e => rw [ht] at hdb; cases hdb
    | ok db₁ =>
      rw [ht] at hdb
      rw [insertTags, bind_apply, execute_of_faults_nil h ht]
      exact ih h hdb

/-- The expiry string the code works out, for an expiry that formats. -/
theorem expiry_of_storedExpiry {ms : Option Int} {expiry : Option String} (w : World)
    (h : storedExpiry et ms = .ok expiry) :
    ∃ s, (match ms with
      | none => pure ""
      | some ms => check (et ms) : Op String) w = .ok s w ∧
      expiry = if s.isEmpty then none else some s := by
  cases ms with
  | none => cases h; exact ⟨"", rfl, rfl⟩
  | some ms =>
    cases het : et ms with
    | error e => simp [storedExpiry, het, Except.map] at h
    | ok s =>
      simp only [storedExpiry, het, Except.map, Except.ok.injEq] at h
      exact ⟨s, by simp [het], h.symm⟩

/-- With no failure to come, item statements the tables admit are written. -/
theorem storeItem_of_faults_nil (e : EntryId) {op : EntryOperation} {v : Bytes} {s : String}
    {w : World} {db₁ : Db} (h : w.faults = [])
    (hi : w.db.writeItem codec keys op e v (if s.isEmpty then none else some s) = .ok db₁) :
    storeItem op e.profileId e.kind (codec.encryptCategory (keys e.profileId) e.category)
      (codec.encryptName (keys e.profileId) e.name)
      (codec.encryptValue (keys e.profileId) e.category e.name v) s w =
        .ok () { w with db := db₁ } := by
  unfold storeItem
  unfold Db.writeItem at hi
  by_cases hop : op = .insert
  · simp only [hop, if_true] at hi ⊢
    by_cases hs : s.isEmpty <;> simp only [hs, Bool.false_eq_true, if_true, if_false] at hi ⊢ <;>
      exact execute_of_faults_nil h hi
  · simp only [hop, if_false, Except.ok.injEq] at hi ⊢
    subst hi
    by_cases hs : s.isEmpty <;> simp only [hs, Bool.false_eq_true, if_true, if_false] <;>
      rw [bind_apply, execute_ok_of_faults_nil _ h] <;> exact execute_ok_of_faults_nil _ h

/-- With no failure to come, an `Insert | Replace` whose statements the tables admit runs them
all. -/
theorem writeEntry_of_faults_nil (e : EntryId) {op : EntryOperation} {v : Bytes}
    {tags : Option (List EntryTag)} {ms : Option Int} {w : World} {expiry : Option String}
    {db₁ db' : Db} (h : w.faults = []) (hexp : storedExpiry et ms = .ok expiry)
    (hi : w.db.writeItem codec keys op e v expiry = .ok db₁)
    (ht : db₁.insertEntryTags codec keys e tags = some db') :
    writeEntry codec et op e.profileId (keys e.profileId) e.kind e.category e.name v tags ms w =
      .ok () { w with db := db' } := by
  obtain ⟨s, hs, rfl⟩ := expiry_of_storedExpiry w hexp
  refine bind_eq_ok.2 ⟨(), w, attempt_of_faults_nil h, bind_eq_ok.2 ⟨(), w,
    attemptOrPanic_of_faults_nil h, bind_eq_ok.2 ⟨s, w, hs, bind_eq_ok.2 ⟨(), _,
      storeItem_of_faults_nil e h hi, ?_⟩⟩⟩⟩
  cases tags with
  | none => cases ht; rfl
  | some ts =>
    obtain ⟨itemId, hid, ht⟩ := Option.bind_eq_some.1 ht
    have h₁ : ({ w with db := db₁ } : World).faults = [] := h
    refine bind_eq_ok.2 ⟨itemId, _, ?_, bind_eq_ok.2 ⟨(), _, attemptOrPanic_of_faults_nil h₁,
      insertTags_of_faults_nil h₁ (except_toOption_eq_some.1 ht)⟩⟩
    rw [selectFirstOrPanic_of_faults_nil _ h₁]
    simp only [hid]

theorem deleteEntry_of_faults_nil (e : EntryId) {w : World} (h : w.faults = []) :
    deleteEntry codec e.profileId (keys e.profileId) e.kind e.category e.name w =
      .ok () { w with db := w.db.deleteEntryRow codec keys e } :=
  bind_eq_ok.2 ⟨(), w, attempt_of_faults_nil h, execute_ok_of_faults_nil _ h⟩

/-! ### When `update` returns -/

section Returns

/-- The tables an `Insert | Replace` ends in: those its item statements leave, then its tag
statements. -/
theorem Db.applyUpdate_write_eq_some (op : EntryOperation) (hop : op ≠ .remove) {e : EntryId}
    {v : Bytes} {tags : Option (List EntryTag)} {ms : Option Int} {db db' : Db} :
    db.applyUpdate codec keys et op e v tags ms = some db' ↔
      ∃ expiry db₁, storedExpiry et ms = .ok expiry ∧
        db.writeItem codec keys op e v expiry = .ok db₁ ∧
        db₁.insertEntryTags codec keys e tags = some db' := by
  cases op with
  | remove => exact absurd rfl hop
  | insert | replace =>
    constructor
    · intro h
      obtain ⟨expiry, hexp, h⟩ := Option.bind_eq_some.1 h
      obtain ⟨db₁, hi, ht⟩ := Option.bind_eq_some.1 h
      exact ⟨expiry, db₁, except_toOption_eq_some.1 hexp, except_toOption_eq_some.1 hi, ht⟩
    · rintro ⟨expiry, db₁, hexp, hi, ht⟩
      exact Option.bind_eq_some.2 ⟨expiry, except_toOption_eq_some.2 hexp,
        Option.bind_eq_some.2 ⟨db₁, except_toOption_eq_some.2 hi, ht⟩⟩

end Returns

section Calls

variable {et : Int → Int → Except Error String}

/-- With no failure to come, a call on a profile that opens, whose statements the tables admit,
returns in the tables `Db.applyUpdate` gives. -/
theorem update_of_faults_nil {c : UpdateCall} {w : World} {db' : Db}
    (hw : ProfilesAgree kw ids keys w) (hf : w.faults = []) (ho : Opens kw c.session.profile w)
    (h : w.db.applyUpdate codec keys (et c.now) c.operation (c.entry ids) (c.value.getD []) c.tags
      c.expiryMs = some db') :
    ∃ w', c.run kw codec et w = .ok () w' ∧ w'.db = db' := by
  obtain ⟨w₁, hk, hdb₁, hf₁⟩ := acquireKey_returns hw hf ho
  rw [← hdb₁] at h
  unfold UpdateCall.run update
  cases hop : c.operation with
  | remove =>
    simp only [hop, Db.applyUpdate, Option.some.injEq] at h
    exact ⟨_, bind_eq_ok.2 ⟨_, _, hk, deleteEntry_of_faults_nil (c.entry ids) hf₁⟩, h⟩
  | insert | replace =>
    obtain ⟨expiry, db₁, hexp, hi, ht⟩ := (Db.applyUpdate_write_eq_some _ (by rw [hop]; decide)).1 h
    rw [hop] at hi
    exact ⟨_, bind_eq_ok.2 ⟨_, _, hk, writeEntry_of_faults_nil (c.entry ids) hf₁ hexp hi ht⟩, rfl⟩

/-- With no failure from the environment, from a store whose cache agrees with its profile rows,
a call on a profile that opens returns exactly when the tables admit every statement of its
operation, and it then ends in the tables `Db.applyUpdate` gives. -/
theorem update_returns_iff {c : UpdateCall} {w : World} (hw : ProfilesAgree kw ids keys w)
    (hf : w.faults = []) (ho : Opens kw c.session.profile w) (db' : Db) :
    (∃ w', c.run kw codec et w = .ok () w' ∧ w'.db = db') ↔
      w.db.applyUpdate codec keys (et c.now) c.operation (c.entry ids) (c.value.getD []) c.tags
        c.expiryMs = some db' :=
  ⟨fun ⟨_, h, hdb⟩ => hdb ▸ (update_eq_ok hw h).2, update_of_faults_nil hw hf ho⟩

end Calls

/-! ### What the tables admit -/

theorem Db.itemRow_eq_none {db : Db} {e : EntryId} :
    db.itemRow codec keys e = none ↔ e.columns codec keys ∉ db.items.map ItemRow.identity := by
  simp [Db.itemRow, List.find?_eq_none]

/-- The unique constraint admits an `INSERT_ITEM` exactly when the entry is absent. -/
theorem Db.insertEntryRow_admitted {db : Db} {e : EntryId} (v : Bytes) (expiry : Option String) :
    (∃ db₁, db.insertEntryRow codec keys e v expiry = .ok db₁) ↔
      db.entries codec keys e = none := by
  rw [Db.entries, Option.map_eq_none', Db.itemRow_eq_none]
  unfold Db.insertEntryRow Db.insertItem
  split <;> simp_all [EntryId.columns]

/-- The tag statements find the item's id exactly when there is no tag list or the entry is
there. -/
theorem Db.insertEntryTags_isSome (db : Db) (e : EntryId) (tags : Option (List EntryTag)) :
    (db.insertEntryTags codec keys e tags).isSome ↔
      tags = none ∨ db.entries codec keys e ≠ none := by
  cases tags with
  | none => simp [Db.insertEntryTags]
  | some ts =>
    have hrow : db.entries codec keys e ≠ none ↔ db.entryItemId codec keys e ≠ none := by
      simp [Db.entries, Db.entryItemId_eq]
    rw [hrow]
    cases hid : db.entryItemId codec keys e with
    | none => simp [Db.insertEntryTags, hid]
    | some itemId =>
      simp [Db.insertEntryTags, hid, Db.insertTagRows_eq (Db.entryItemId_mem hid), Except.toOption]

/-- The item statements of a `Replace` keep which entries are there. -/
theorem Db.entries_replaceRows_eq_none (db : Db) (e : EntryId) (v : Bytes)
    (expiry : Option String) :
    ((db.updateEntryRow codec keys e v expiry).deleteTag e.profileId).entries codec keys e = none ↔
      db.entries codec keys e = none := by
  show (db.updateEntryRow codec keys e v expiry).entries codec keys e = none ↔ _
  rw [Db.entries_updateEntryRow]
  simp [Entries.replace]

/-- The tables admit every statement of an operation exactly when it is a `Remove`, or its expiry
formats and it is an `Insert` on an absent entry or a `Replace` on an entry that is there or with
no tag list. -/
theorem Db.applyUpdate_isSome_iff (db : Db) (op : EntryOperation) (e : EntryId) (v : Bytes)
    (tags : Option (List EntryTag)) (ms : Option Int) :
    (db.applyUpdate codec keys et op e v tags ms).isSome ↔
      op = .remove ∨ (∃ expiry, storedExpiry et ms = .ok expiry) ∧
        (op = .insert ∧ db.entries codec keys e = none ∨
          op = .replace ∧ (tags = none ∨ db.entries codec keys e ≠ none)) := by
  cases op with
  | remove => simp [Db.applyUpdate]
  | insert =>
    rw [Option.isSome_iff_exists]
    constructor
    · rintro ⟨db', h⟩
      obtain ⟨expiry, db₁, hexp, hi, -⟩ := (Db.applyUpdate_write_eq_some .insert (by decide)).1 h
      exact .inr ⟨⟨expiry, hexp⟩, .inl ⟨rfl, (Db.insertEntryRow_admitted _ _).1 ⟨db₁, hi⟩⟩⟩
    · rintro (h | ⟨⟨expiry, hexp⟩, ⟨-, habs⟩ | ⟨h, -⟩⟩)
      · cases h
      · obtain ⟨db₁, hi⟩ := (Db.insertEntryRow_admitted v expiry).2 habs
        have hthere : db₁.entries codec keys e ≠ none := by
          simp [Db.entries, Db.itemRow_insertEntryRow hi]
        obtain ⟨db', ht⟩ := Option.isSome_iff_exists.1
          ((Db.insertEntryTags_isSome db₁ e tags).2 (.inr hthere))
        exact ⟨db',
          (Db.applyUpdate_write_eq_some .insert (by decide)).2 ⟨expiry, db₁, hexp, hi, ht⟩⟩
      · cases h
  | replace =>
    rw [Option.isSome_iff_exists]
    constructor
    · rintro ⟨db', h⟩
      obtain ⟨expiry, db₁, hexp, ⟨⟩, ht⟩ := (Db.applyUpdate_write_eq_some .replace (by decide)).1 h
      have htags := (Db.insertEntryTags_isSome _ e tags).1 (Option.isSome_iff_exists.2 ⟨db', ht⟩)
      rw [ne_eq, Db.entries_replaceRows_eq_none] at htags
      exact .inr ⟨⟨expiry, hexp⟩, .inr ⟨rfl, htags⟩⟩
    · rintro (h | ⟨⟨expiry, hexp⟩, ⟨h, -⟩ | ⟨-, htags⟩⟩)
      · cases h
      · cases h
      · rw [ne_eq, ← Db.entries_replaceRows_eq_none db e v expiry] at htags
        obtain ⟨db', ht⟩ := Option.isSome_iff_exists.1
          ((Db.insertEntryTags_isSome _ e tags).2 htags)
        exact ⟨db',
          (Db.applyUpdate_write_eq_some .replace (by decide)).2 ⟨expiry, _, hexp, rfl, ht⟩⟩

/-! ### Over the entry store -/

section Store

variable {et : Int → Int → Except Error String}

/-- With no failure from the environment, from a store whose cache agrees with its profile rows,
a call on a profile that opens returns exactly when it is a `Remove`, or its expiry formats and it
is an `Insert` on an entry the store does not hold, or a `Replace` on one it holds or with no tag
list. -/
theorem update_returns_exactly_when {c : UpdateCall} {w : World}
    (hw : ProfilesAgree kw ids keys w) (hf : w.faults = []) (ho : Opens kw c.session.profile w) :
    (∃ w', c.run kw codec et w = .ok () w') ↔
      c.operation = .remove ∨ (∃ expiry, storedExpiry (et c.now) c.expiryMs = .ok expiry) ∧
        (c.operation = .insert ∧ w.db.entries codec keys (c.entry ids) = none ∨
          c.operation = .replace ∧
            (c.tags = none ∨ w.db.entries codec keys (c.entry ids) ≠ none)) := by
  rw [← Db.applyUpdate_isSome_iff _ _ _ (c.value.getD []), Option.isSome_iff_exists]
  simp only [← update_returns_iff hw hf ho]
  exact ⟨fun ⟨w', h⟩ => ⟨_, w', h, rfl⟩, fun ⟨_, w', h, _⟩ => ⟨w', h⟩⟩

/-- `insertA` on `profileACreated`, where nothing is to fail and profile `a` is cached. -/
theorem insert_a_returns_exactly_when :
    ProfilesAgree KeyWrap.symbolic (fun _ => 1) (fun _ => ⟨7⟩) profileACreated ∧
      profileACreated.faults = [] ∧ Opens KeyWrap.symbolic insertA.session.profile profileACreated ∧
      ((∃ w', insertA.run KeyWrap.symbolic EntryCodec.plain (fun _ _ => .ok "") profileACreated =
          .ok () w') ↔
        insertA.operation = .remove ∨
          (∃ expiry, storedExpiry (fun _ => .ok "") insertA.expiryMs = .ok expiry) ∧
          (insertA.operation = .insert ∧ profileACreated.db.entries EntryCodec.plain
              (fun _ => ⟨7⟩) (insertA.entry fun _ => 1) = none ∨
            insertA.operation = .replace ∧ (insertA.tags = none ∨ profileACreated.db.entries
              EntryCodec.plain (fun _ => ⟨7⟩) (insertA.entry fun _ => 1) ≠ none))) :=
  ⟨profilesAgree_profileACreated, rfl, .inl rfl,
    update_returns_exactly_when profilesAgree_profileACreated rfl (.inl rfl)⟩

end Store

/-! ### `rekey` -/

theorem readProfiles_of_faults_nil (rows acc : List (Int × Bytes)) {w : World}
    (h : w.faults = []) :
    readProfiles rows acc w = .ok (rows.foldl (fun m p => insertSorted p.1 p.2 m) acc) w := by
  induction rows generalizing acc with
  | nil => exact bind_eq_ok.2 ⟨(), w, attempt_of_faults_nil h, rfl⟩
  | cons x rows ih =>
    exact bind_eq_ok.2 ⟨(), w, attempt_of_faults_nil h, bind_eq_ok.2 ⟨(), w,
      attempt_of_faults_nil h, bind_eq_ok.2 ⟨(), w, attemptOrPanic_of_faults_nil h, ih _⟩⟩⟩

/-- With no failure to come, the loop of `rekey` over entries whose keys all open under the
cache's store key walks them all. -/
theorem rekeyProfiles_of_faults_nil (kw : KeyWrap) (sk : StoreKey) (s : List (Int × Bytes))
    {w : World} (h : w.faults = [])
    (hopen : ∀ x ∈ s, ∃ pk, kw.unwrap w.keyCache.storeKey x.2 = .ok pk) :
    ∃ w', rekeyProfiles kw sk s w = .ok () w' ∧ w'.faults = [] := by
  induction s generalizing w with
  | nil => exact ⟨w, rfl, h⟩
  | cons x rest ih =>
    obtain ⟨pk, hpk⟩ := hopen x (List.mem_cons_self _ _)
    have h₁ : World.faults
        { w with db := w.db.updateProfile (encodeProfileKey kw pk sk) x.1 } = [] := h
    obtain ⟨w', hrest, hf'⟩ := ih h₁ fun y hy => hopen y (List.mem_cons_of_mem _ hy)
    have hload : loadKey kw x.2 w = .ok pk w := by rw [loadKey_of_faults_nil kw _ h, hpk]
    exact ⟨w', bind_eq_ok.2 ⟨pk, w, hload, bind_eq_ok.2 ⟨(), w, attempt_of_faults_nil h,
      bind_eq_ok.2 ⟨(), _, execute_ok_of_faults_nil _ h, hrest⟩⟩⟩, hf'⟩

/-- With no failure from the environment, `rekey` returns exactly when every profile row's key
opens under the `KeyCache`'s store key. -/
theorem rekey_returns_iff (kw : KeyWrap) (sk : StoreKey) {w : World} (hf : w.faults = []) :
    (∃ w', rekey kw sk w = .ok () w') ↔
      ∀ r ∈ w.db.profiles, ∃ pk, kw.unwrap w.keyCache.storeKey r.profileKey = .ok pk := by
  refine ⟨fun ⟨_, h⟩ => (rekey_eq_ok h).2.2.2, fun hopen => ?_⟩
  obtain ⟨w₁, h₁, hf₁⟩ := rekeyProfiles_of_faults_nil kw sk (profileSnapshot w.db) hf
    fun x hx => by
      obtain ⟨r, hr, -, hk⟩ := mem_profileSnapshot hx
      rw [← hk]; exact hopen r hr
  have hsel : selectResult (·.getProfiles) w = .ok (.ok w.db.getProfiles) w := by
    rw [selectResult_apply, World.fault_of_faults_nil hf, World.pop_of_faults_nil hf]
  exact ⟨_, bind_eq_ok.2 ⟨(), w, attempt_of_faults_nil hf, bind_eq_ok.2 ⟨_, w, hsel,
    bind_eq_ok.2 ⟨_, w, readProfiles_of_faults_nil _ _ hf,
      bind_eq_ok.2 ⟨(), w₁, h₁, execute_ok_of_faults_nil _ hf₁⟩⟩⟩⟩⟩

/-- `twoProfiles` with nothing to fail: both rows open under store key 0, which the cache holds. -/
theorem rekey_two_profiles_returns :
    (twoProfiles []).faults = [] ∧
      ((∃ w', rekey KeyWrap.symbolic ⟨1⟩ (twoProfiles []) = .ok () w') ↔
        ∀ r ∈ (twoProfiles []).db.profiles, ∃ pk,
          KeyWrap.symbolic.unwrap (twoProfiles []).keyCache.storeKey r.profileKey = .ok pk) :=
  ⟨rfl, rekey_returns_iff KeyWrap.symbolic ⟨1⟩ rfl⟩

/-! ### Profiles -/

/-- With no failure from the environment, `create_profile` returns exactly when no profile has
the name it creates. On a name in use the unique constraint refuses its `INSERT_PROFILE`, and the
call stops with that error, not a panic, leaving the tables and the cache as they were. -/
theorem create_profile_returns_iff (kw : KeyWrap) (name : Option String) (randomName : String)
    (pk : ProfileKey) {w : World} (hf : w.faults = []) :
    ((∃ n w', createProfile kw name randomName pk w = .ok n w') ↔
        name.getD randomName ∉ w.db.getProfileNames) ∧
      (name.getD randomName ∈ w.db.getProfileNames →
        ∃ e, createProfile kw name randomName pk w = .error (.error e) w) := by
  have hstmt := attempt_of_faults_nil hf
  refine ⟨⟨fun ⟨n, w', h⟩ => ?_, fun hnew => ?_⟩, fun hin => ⟨⟨.duplicate, "profiles.name"⟩, ?_⟩⟩
  · obtain ⟨rfl, db, hdb, -⟩ := createProfile_eq_ok h
    exact (Db.insertProfile_eq_ok hdb).1
  · obtain ⟨db, hdb⟩ : ∃ db, w.db.insertProfile (name.getD randomName)
        (encodeProfileKey kw pk w.keyCache.storeKey) = .ok db := ⟨_, dif_neg hnew⟩
    have h₁ : World.faults { w with db } = [] := hf
    have hsel := selectFirstOrPanic_of_faults_nil
      (·.getProfileId (name.getD randomName) (encodeProfileKey kw pk w.keyCache.storeKey)) h₁
    simp only [Db.getProfileId_of_insertProfile hdb, List.head?_cons] at hsel
    exact ⟨_, _, bind_eq_ok.2 ⟨w, w, rfl, bind_eq_ok.2 ⟨(), w, hstmt, bind_eq_ok.2 ⟨(), _,
      execute_of_faults_nil hf hdb, bind_eq_ok.2 ⟨_, _, hsel, rfl⟩⟩⟩⟩⟩
  · exact bind_eq_error.2 (.inr ⟨w, w, rfl, bind_eq_error.2 (.inr ⟨(), w, hstmt,
      bind_eq_error.2 (.inl (execute_error_of_faults_nil hf (dif_pos hin)))⟩)⟩)

/-- `profileACreated`, where nothing is to fail, asked to create `a` again. -/
theorem create_profile_a_again :
    profileACreated.faults = [] ∧ "a" ∈ profileACreated.db.getProfileNames ∧
      ∃ e, createProfile KeyWrap.symbolic (some "a") "r" ⟨9⟩ profileACreated =
        .error (.error e) profileACreated :=
  ⟨rfl, by decide,
    (create_profile_returns_iff KeyWrap.symbolic (some "a") "r" ⟨9⟩ rfl).2 (by decide)⟩

/-- With no failure from the environment, `remove_profile` returns, answers whether a profile had
the name, and leaves none with it: removing an unknown profile answers `false`, not an error. -/
theorem remove_profile_answers (name : String) {w : World} (hf : w.faults = []) :
    ∃ w', removeProfile name w = .ok (decide (name ∈ w.db.getProfileNames)) w' ∧
      name ∉ w'.db.getProfileNames ∧ w'.keyCache = w.keyCache := by
  have hsel : selectFirstOrPanic (fun db => [db.getProfileCountForName name]) w =
      .ok (w.db.getProfileCountForName name) w := selectFirstOrPanic_of_faults_nil _ hf
  by_cases hin : name ∈ w.db.getProfileNames
  · have hpos : w.db.getProfileCountForName name > 0 := Db.getProfileCountForName_pos.2 hin
    refine ⟨{ w with db := w.db.deleteProfile name }, bind_eq_ok.2 ⟨_, w, hsel, ?_⟩, ?_, rfl⟩
    · rw [if_pos hpos, decide_eq_true hin]
      exact bind_eq_ok.2 ⟨(), _, execute_ok_of_faults_nil _ hf, rfl⟩
    · simp [Db.getProfileNames, Db.deleteProfile]
  · have hpos : ¬w.db.getProfileCountForName name > 0 := fun h =>
      hin (Db.getProfileCountForName_pos.1 h)
    refine ⟨w, bind_eq_ok.2 ⟨_, w, hsel, ?_⟩, hin, rfl⟩
    rw [if_neg hpos, decide_eq_false hin]
    rfl

/-- `oneProfile`, where nothing is to fail: removing `a` answers `true` and leaves no `a`. -/
theorem remove_profile_a_answers :
    oneProfile.faults = [] ∧ ∃ w', removeProfile "a" oneProfile =
        .ok (decide ("a" ∈ oneProfile.db.getProfileNames)) w' ∧
      "a" ∉ w'.db.getProfileNames ∧ w'.keyCache = oneProfile.keyCache :=
  ⟨rfl, remove_profile_answers "a" rfl⟩

end AskarOdbc
