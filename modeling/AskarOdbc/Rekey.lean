import AskarOdbc.Profiles

/-! What `rekey` does to the profile rows. It reads a snapshot of every `(id, profile_key)` into a
`BTreeMap`, so that its loop walks the rows in ascending id order; each turn of the loop unwraps
a key under the `KeyCache`'s store key, wraps it under the new store key and writes it back, and
the config `key` row is written last. `Rewrapped` says what a prefix of the loop has done, and
`rekeyProfiles_spec` proves, by induction over the snapshot, that the loop either completes or
stops after a prefix, with every row outside the prefix as it was. From it: a successful rekey
re-wraps every row, each to the key it held (`rekey_eq_ok`), but leaves the `KeyCache` with the
old store key; a failed one leaves the config row as it was and a prefix of the rows re-wrapped
(`rekey_eq_error`), which a second rekey can then no longer read. -/

namespace AskarOdbc

open Op

/-! ### The snapshot -/

/-- The keys of a map held as a list rise strictly: the iteration order of a `BTreeMap`. -/
def KeysAscending (m : List (Int × Bytes)) : Prop := m.Pairwise fun a b => a.1 < b.1

theorem insertSorted_spec {k : Int} {v : Bytes} {m : List (Int × Bytes)} (h : KeysAscending m) :
    KeysAscending (insertSorted k v m) ∧
      ∀ x, x ∈ insertSorted k v m ↔ x = (k, v) ∨ (x ∈ m ∧ x.1 ≠ k) := by
  induction m with
  | nil => simp [KeysAscending, insertSorted]
  | cons y rest ih =>
    obtain ⟨k', v'⟩ := y
    simp only [KeysAscending, List.pairwise_cons] at h
    obtain ⟨hlt, hrest⟩ := h
    obtain ⟨ihs, ihm⟩ := ih hrest
    simp only [insertSorted]
    split
    · refine ⟨?_, fun x => ?_⟩
      · simp only [KeysAscending, List.pairwise_cons, List.mem_cons]
        refine ⟨?_, hlt, hrest⟩
        rintro b (rfl | hb)
        · assumption
        · exact lt_trans ‹_› (hlt b hb)
      · simp only [List.mem_cons]
        constructor
        · rintro (h | h | h)
          · exact .inl h
          · exact .inr ⟨.inl h, by subst h; simp only; omega⟩
          · exact .inr ⟨.inr h, by have := hlt x h; omega⟩
        · rintro (h | ⟨h | h, -⟩) <;> simp [h]
    · split
      · subst k'
        refine ⟨?_, fun x => ?_⟩
        · simpa [KeysAscending] using And.intro hlt hrest
        · simp only [List.mem_cons]
          constructor
          · rintro (h | h)
            · exact .inl h
            · exact .inr ⟨.inr h, by have := hlt x h; omega⟩
          · rintro (h | ⟨h | h, hne⟩)
            · exact .inl h
            · subst h; exact absurd rfl hne
            · exact .inr h
      · refine ⟨?_, fun x => ?_⟩
        · simp only [KeysAscending, List.pairwise_cons]
          refine ⟨fun b hb => ?_, ihs⟩
          rcases (ihm b).1 hb with rfl | ⟨hb, -⟩
          · simp only; omega
          · exact hlt b hb
        · simp only [List.mem_cons, ihm]
          constructor
          · rintro (rfl | h | h)
            · exact .inr ⟨.inl rfl, by simp only; omega⟩
            · exact .inl h
            · exact .inr ⟨.inr h.1, h.2⟩
          · rintro (h | ⟨rfl | h, hne⟩)
            · exact .inr (.inl h)
            · exact .inl rfl
            · exact .inr (.inr ⟨h, hne⟩)

/-- Rows with distinct ids, inserted one by one: the map holds exactly them and what it held
under other ids, in ascending order. -/
theorem foldl_insertSorted_spec {rows acc : List (Int × Bytes)} (hacc : KeysAscending acc)
    (hnd : (rows.map Prod.fst).Nodup) :
    KeysAscending (rows.foldl (fun m p => insertSorted p.1 p.2 m) acc) ∧
      ∀ x, x ∈ rows.foldl (fun m p => insertSorted p.1 p.2 m) acc ↔
        x ∈ rows ∨ (x ∈ acc ∧ x.1 ∉ rows.map Prod.fst) := by
  induction rows generalizing acc with
  | nil => simpa using hacc
  | cons y rows ih =>
    rw [List.map_cons, List.nodup_cons] at hnd
    obtain ⟨hs, hm⟩ := @insertSorted_spec y.1 y.2 acc hacc
    obtain ⟨ihs, ihm⟩ := ih hs hnd.2
    refine ⟨ihs, fun x => ?_⟩
    rw [List.foldl_cons, ihm, hm]
    constructor
    · rintro (h | ⟨rfl | ⟨h, hne⟩, hx⟩)
      · exact .inl (List.mem_cons_of_mem _ h)
      · exact .inl (List.mem_cons_self _ _)
      · exact .inr ⟨h, by simp [hne, hx]⟩
    · rintro (h | ⟨h, hx⟩)
      · rcases List.mem_cons.1 h with rfl | h
        · exact .inr ⟨.inl rfl, hnd.1⟩
        · exact .inl h
      · simp only [List.map_cons, List.mem_cons, not_or] at hx
        exact .inr ⟨.inr ⟨h, hx.1⟩, hx.2⟩

/-- `upd_keys` once the `while let` loop of `rekey` has read every row of `GET_PROFILES`. -/
def profileSnapshot (db : Db) : List (Int × Bytes) :=
  db.getProfiles.foldl (fun m p => insertSorted p.1 p.2 m) []

theorem getProfiles_ids (db : Db) :
    db.getProfiles.map Prod.fst = db.profiles.map ProfileRow.id := by
  simp [Db.getProfiles, Function.comp_def]

/-- The snapshot holds each row's id and stored key, in ascending id order. -/
theorem profileSnapshot_spec (db : Db) :
    KeysAscending (profileSnapshot db) ∧ ∀ x, x ∈ profileSnapshot db ↔ x ∈ db.getProfiles := by
  obtain ⟨hs, hm⟩ := @foldl_insertSorted_spec db.getProfiles [] List.Pairwise.nil
    (by rw [getProfiles_ids]; exact db.profiles_id_nodup)
  exact ⟨hs, fun x => by simpa using hm x⟩

/-- The row of the snapshot's entry `x`. -/
theorem mem_profileSnapshot {db : Db} {x : Int × Bytes} (hx : x ∈ profileSnapshot db) :
    ∃ r ∈ db.profiles, r.id = x.1 ∧ r.profileKey = x.2 := by
  obtain ⟨r, hr, rfl⟩ := List.mem_map.1 (((profileSnapshot_spec db).2 x).1 hx)
  exact ⟨r, hr, rfl, rfl⟩

/-- Every row's id and stored key are in the snapshot. -/
theorem mem_profileSnapshot_of_mem {db : Db} {r : ProfileRow} (hr : r ∈ db.profiles) :
    (r.id, r.profileKey) ∈ profileSnapshot db :=
  ((profileSnapshot_spec db).2 _).2 (List.mem_map_of_mem _ hr)

/-! ### The loop -/

/-- A row as a turn of the `for` loop of `rekey` leaves it: its key, unwrapped under `ck`,
wrapped under `sk`. -/
def rewrap (kw : KeyWrap) (ck sk : StoreKey) (r : ProfileRow) : ProfileRow :=
  match kw.unwrap ck r.profileKey with
  | .ok pk => { r with profileKey := encodeProfileKey kw pk sk }
  | .error _ => r

/-- The rows with an id in `ids` re-wrapped, the others as they were. -/
def rewrapIds (kw : KeyWrap) (ck sk : StoreKey) (ids : List Int) (r : ProfileRow) : ProfileRow :=
  if r.id ∈ ids then rewrap kw ck sk r else r

@[simp] theorem rewrap_id (kw : KeyWrap) (ck sk : StoreKey) (r : ProfileRow) :
    (rewrap kw ck sk r).id = r.id := by
  unfold rewrap; split <;> rfl

/-- Re-wrapping the rows of the whole snapshot re-wraps every row. -/
theorem map_rewrapIds_profileSnapshot (kw : KeyWrap) (ck sk : StoreKey) (db : Db) :
    db.profiles.map (rewrapIds kw ck sk ((profileSnapshot db).map Prod.fst)) =
      db.profiles.map (rewrap kw ck sk) :=
  List.map_congr_left fun _ hr =>
    if_pos (List.mem_map_of_mem Prod.fst (mem_profileSnapshot_of_mem hr))

@[simp] theorem rewrap_name (kw : KeyWrap) (ck sk : StoreKey) (r : ProfileRow) :
    (rewrap kw ck sk r).name = r.name := by
  unfold rewrap; split <;> rfl

@[simp] theorem rewrapIds_nil (kw : KeyWrap) (ck sk : StoreKey) : rewrapIds kw ck sk [] = id := by
  funext r; simp [rewrapIds]

theorem rewrap_of_opens {kw : KeyWrap} {ck sk : StoreKey} {r : ProfileRow} {pk : ProfileKey}
    (hu : kw.unwrap ck r.profileKey = .ok pk) :
    rewrap kw ck sk r = { r with profileKey := encodeProfileKey kw pk sk } := by
  rw [rewrap, hu]

theorem rewrapIds_cons {kw : KeyWrap} {ck sk : StoreKey} {p : Int} {e : Bytes} {pk : ProfileKey}
    {ids : List Int} {r : ProfileRow} (hu : kw.unwrap ck e = .ok pk) (hp : p ∉ ids)
    (hr : r.id = p → r.profileKey = e) :
    rewrapIds kw ck sk ids (Db.rekeyRow (encodeProfileKey kw pk sk) p r) =
      rewrapIds kw ck sk (p :: ids) r := by
  by_cases h : r.id = p
  · simp [rewrapIds, Db.rekeyRow, h, hp, rewrap_of_opens ((hr h).symm ▸ hu : _ = Except.ok pk)]
  · simp [rewrapIds, Db.rekeyRow, h]

/-- The entries `s` the loop has still to walk: distinct ids, each with the key its row holds. -/
def Pending (s : List (Int × Bytes)) (rows : List ProfileRow) : Prop :=
  (s.map Prod.fst).Nodup ∧ ∀ x ∈ s, ∀ r ∈ rows, r.id = x.1 → r.profileKey = x.2

theorem pending_profileSnapshot (db : Db) : Pending (profileSnapshot db) db.profiles := by
  refine ⟨(List.pairwise_map.2 (profileSnapshot_spec db).1).imp ne_of_lt, fun x hx r hr hid => ?_⟩
  obtain ⟨r', hr', hid', hk⟩ := mem_profileSnapshot hx
  rw [List.inj_on_of_nodup_map db.profiles_id_nodup hr hr' (hid.trans hid'.symm), hk]

/-- The loop has walked the entries `done`: from `w` to `w'` their rows were re-wrapped, each
opening under the cache's store key, and nothing else of the config, the profiles or the cache
changed. -/
structure Rewrapped (kw : KeyWrap) (sk : StoreKey) (done : List (Int × Bytes)) (w w' : World) :
    Prop where
  profiles : w'.db.profiles =
    w.db.profiles.map (rewrapIds kw w.keyCache.storeKey sk (done.map Prod.fst))
  storeKey : w'.db.storeKey = w.db.storeKey
  keyCache : w'.keyCache = w.keyCache
  opens : ∀ x ∈ done, ∃ pk, kw.unwrap w.keyCache.storeKey x.2 = .ok pk

theorem Rewrapped.none {kw : KeyWrap} {sk : StoreKey} {w w' : World} (h : Unchanged w w') :
    Rewrapped kw sk [] w w' :=
  ⟨by simp [h.db], by rw [h.db], h.keyCache, by simp⟩

theorem Rewrapped.unchanged {kw : KeyWrap} {sk : StoreKey} {done : List (Int × Bytes)}
    {w₀ w w' : World} (h₀ : Unchanged w₀ w) (h : Rewrapped kw sk done w w')
    (h' : Unchanged w' w'') : Rewrapped kw sk done w₀ w'' where
  profiles := by rw [h'.db, h.profiles, h₀.db, h₀.keyCache]
  storeKey := by rw [h'.db, h.storeKey, h₀.db]
  keyCache := by rw [h'.keyCache, h.keyCache, h₀.keyCache]
  opens := by rw [← h₀.keyCache]; exact h.opens

theorem Rewrapped.cons {kw : KeyWrap} {sk : StoreKey} {p : Int} {e : Bytes} {pk : ProfileKey}
    {done : List (Int × Bytes)} {w w₃ w' : World} (h : Rewrapped kw sk done w₃ w')
    (hu : kw.unwrap w.keyCache.storeKey e = .ok pk) (hp : p ∉ done.map Prod.fst)
    (hr : ∀ r ∈ w.db.profiles, r.id = p → r.profileKey = e)
    (h₃ : w₃.db.profiles = w.db.profiles.map (Db.rekeyRow (encodeProfileKey kw pk sk) p))
    (h₃s : w₃.db.storeKey = w.db.storeKey) (h₃c : w₃.keyCache = w.keyCache) :
    Rewrapped kw sk ((p, e) :: done) w w' where
  profiles := by
    rw [h.profiles, h₃, h₃c, List.map_map]
    exact List.map_congr_left fun r hr' => rewrapIds_cons hu hp (hr r hr')
  storeKey := h.storeKey.trans h₃s
  keyCache := h.keyCache.trans h₃c
  opens := by
    rintro x (_ | ⟨_, hx⟩)
    · exact ⟨pk, hu⟩
    · rw [← h₃c]; exact h.opens x hx

/-- The `for` loop of `rekey` over the entries `s` either walks them all or stops after a
prefix of them, the turn it stops in having written nothing. -/
theorem rekeyProfiles_spec (kw : KeyWrap) (sk : StoreKey) (s : List (Int × Bytes)) (w : World)
    (hp : Pending s w.db.profiles) :
    match rekeyProfiles kw sk s w with
    | .ok _ w' => Rewrapped kw sk s w w'
    | .error _ w' => ∃ j < s.length, Rewrapped kw sk (s.take j) w w' := by
  induction s generalizing w with
  | nil => exact Rewrapped.none (Unchanged.refl w)
  | cons x rest ih =>
    obtain ⟨p, e⟩ := x
    obtain ⟨hnd, hfr⟩ := hp
    rw [List.map_cons, List.nodup_cons] at hnd
    simp only at hnd
    have hr := fun r hr => hfr (p, e) (List.mem_cons_self _ _) r hr
    rw [rekeyProfiles, bind_apply, loadKey_apply]
    cases w.fault with
    | some f => exact ⟨0, by simp, Rewrapped.none (Unchanged.pop w)⟩
    | none =>
      dsimp only
      cases hu : kw.unwrap w.keyCache.storeKey e with
      | error f => exact ⟨0, by simp, Rewrapped.none (Unchanged.pop w)⟩
      | ok pk =>
        dsimp only
        rw [bind_apply, attempt_apply]
        have h₂ := (Unchanged.pop w).trans (Unchanged.pop w.pop)
        cases w.pop.fault with
        | some f => exact ⟨0, by simp, Rewrapped.none h₂⟩
        | none =>
          dsimp only
          rw [bind_apply, execute_apply]
          cases w.pop.pop.fault with
          | some f => exact ⟨0, by simp, Rewrapped.none (h₂.trans (Unchanged.pop _))⟩
          | none =>
            dsimp only
            have hp' : Pending rest
                (w.db.profiles.map (Db.rekeyRow (encodeProfileKey kw pk sk) p)) := by
              refine ⟨hnd.2, fun x hx r hr' hid => ?_⟩
              obtain ⟨r₀, hr₀, rfl⟩ := List.mem_map.1 hr'
              have hne : r₀.id ≠ p := fun h => hnd.1 (by
                rw [Db.rekeyRow_id, h] at hid; rw [hid]; exact List.mem_map_of_mem _ hx)
              simp only [Db.rekeyRow, hne, if_false] at hid ⊢
              exact hfr x (List.mem_cons_of_mem _ hx) r₀ hr₀ hid
            have := ih { w.pop.pop.pop with
              db := w.pop.pop.db.updateProfile (encodeProfileKey kw pk sk) p } hp'
            revert this
            cases rekeyProfiles kw sk rest { w.pop.pop.pop with
              db := w.pop.pop.db.updateProfile (encodeProfileKey kw pk sk) p } with
            | ok _ w' => exact fun h => Rewrapped.cons h hu hnd.1 hr rfl rfl rfl
            | error _ w' =>
              rintro ⟨j, hj, h⟩
              exact ⟨j + 1, by simp; omega, Rewrapped.cons h hu
                (fun hm => hnd.1 (List.map_subset _ (List.take_subset _ _) hm)) hr rfl rfl rfl⟩

/-! ### Rekey -/

theorem readsOnly_readProfiles (rows acc : List (Int × Bytes)) :
    ReadsOnly (readProfiles rows acc) := by
  induction rows generalizing acc with
  | nil => exact readsOnly_attempt.bind fun _ => readsOnly_pure _
  | cons x rows ih =>
    exact readsOnly_attempt.bind fun _ => readsOnly_attempt.bind fun _ =>
      readsOnly_attemptOrPanic.bind fun _ => ih _

theorem readProfiles_eq_ok {rows acc m : List (Int × Bytes)} {w w' : World}
    (h : readProfiles rows acc w = .ok m w') :
    m = rows.foldl (fun m p => insertSorted p.1 p.2 m) acc := by
  induction rows generalizing acc w with
  | nil =>
    obtain ⟨_, _, -, h⟩ := bind_eq_ok.1 h
    exact (EStateM.Result.ok.inj h).1.symm
  | cons x rows ih =>
    obtain ⟨_, _, -, h⟩ := bind_eq_ok.1 h
    obtain ⟨_, _, -, h⟩ := bind_eq_ok.1 h
    obtain ⟨_, _, -, h⟩ := bind_eq_ok.1 h
    exact ih h

/-- Up to its loop `rekey` only reads: it stops in a world with the tables and the cache it
started from, or enters its loop on the snapshot in such a world. -/
theorem rekey_cases (kw : KeyWrap) (sk : StoreKey) (w : World) :
    (∃ e w', rekey kw sk w = .error e w' ∧ Unchanged w w') ∨
      ∃ w₃, Unchanged w w₃ ∧ rekey kw sk w =
        (rekeyProfiles kw sk (profileSnapshot w.db) >>= fun _ =>
          execute fun db => .ok (db.updateConfigKey sk)) w₃ := by
  rw [rekey, bind_apply, attempt_apply]
  cases w.fault with
  | some e => exact .inl ⟨_, _, rfl, Unchanged.pop w⟩
  | none =>
    dsimp only
    rw [bind_apply, selectResult_apply]
    have h₂ := (Unchanged.pop w).trans (Unchanged.pop w.pop)
    cases w.pop.fault with
    | some e => exact .inl ⟨_, _, rfl, h₂⟩
    | none =>
      dsimp only
      rw [bind_apply]
      have hro := (readsOnly_readProfiles w.pop.db.getProfiles []) w.pop.pop
      cases hr : readProfiles w.pop.db.getProfiles [] w.pop.pop with
      | error e w₃ => rw [hr] at hro; exact .inl ⟨_, _, rfl, h₂.trans hro⟩
      | ok m w₃ =>
        rw [hr] at hro
        obtain rfl := readProfiles_eq_ok hr
        exact .inr ⟨w₃, h₂.trans hro, rfl⟩

/-- A successful `rekey` to `sk` re-wraps every profile row under `sk`, each row's key opening
under the `KeyCache`'s store key, and the config `key` row then names `sk`; the `KeyCache`, and
the store key in it, are as they were. -/
theorem rekey_eq_ok {kw : KeyWrap} {sk : StoreKey} {w w' : World} {u : Unit}
    (h : rekey kw sk w = .ok u w') :
    w'.db.storeKey = sk ∧ w'.keyCache = w.keyCache ∧
      w'.db.profiles = w.db.profiles.map (rewrap kw w.keyCache.storeKey sk) ∧
      ∀ r ∈ w.db.profiles, ∃ pk, kw.unwrap w.keyCache.storeKey r.profileKey = .ok pk := by
  rcases rekey_cases kw sk w with ⟨e, w', he, -⟩ | ⟨w₃, hu, he⟩
  · rw [he] at h; cases h
  rw [he] at h
  obtain ⟨_, w₄, h₄, h⟩ := bind_eq_ok.1 h
  obtain ⟨db, hdb, rfl⟩ := execute_eq_ok h
  cases hdb
  have hsp := rekeyProfiles_spec kw sk (profileSnapshot w.db) w₃
    (by rw [hu.db]; exact pending_profileSnapshot w.db)
  rw [h₄] at hsp
  have hR := Rewrapped.unchanged hu hsp (Unchanged.refl w₄)
  refine ⟨rfl, hR.keyCache, ?_, fun r hr => hR.opens _ (mem_profileSnapshot_of_mem hr)⟩
  rw [← map_rewrapIds_profileSnapshot]; exact hR.profiles

/-- A failed `rekey` has re-wrapped the rows of a prefix of its snapshot and left the rest of the
rows, the config `key` row and the `KeyCache` as they were. -/
theorem rekey_eq_error {kw : KeyWrap} {sk : StoreKey} {w w' : World} {e : Fault}
    (h : rekey kw sk w = .error e w') :
    ∃ j ≤ (profileSnapshot w.db).length, Rewrapped kw sk ((profileSnapshot w.db).take j) w w' := by
  rcases rekey_cases kw sk w with ⟨e', w'', he, hu⟩ | ⟨w₃, hu, he⟩
  · rw [he] at h; cases h; exact ⟨0, Nat.zero_le _, Rewrapped.none hu⟩
  rw [he] at h
  have hsp := rekeyProfiles_spec kw sk (profileSnapshot w.db) w₃
    (by rw [hu.db]; exact pending_profileSnapshot w.db)
  rcases bind_eq_error.1 h with h₄ | ⟨_, w₄, h₄, h⟩
  · rw [h₄] at hsp
    obtain ⟨j, hj, hR⟩ := hsp
    exact ⟨j, hj.le, Rewrapped.unchanged hu hR (Unchanged.refl _)⟩
  · rw [h₄] at hsp
    refine ⟨_, le_refl _, ?_⟩
    rw [List.take_length]
    exact Rewrapped.unchanged hu hsp (execute_eq_error h)

/-- A row wrapped under a key other than the `KeyCache`'s store key stops every `rekey`: the
loop cannot open it. -/
theorem rekey_blocked {kw : KeyWrap} {w : World} {r : ProfileRow} {pk : ProfileKey}
    {sk : StoreKey} (hr : r ∈ w.db.profiles) (hk : r.profileKey = encodeProfileKey kw pk sk)
    (hne : sk ≠ w.keyCache.storeKey) (sk' : StoreKey) (u : Unit) (w' : World) :
    rekey kw sk' w ≠ .ok u w' := fun h => by
  obtain ⟨pk', hpk'⟩ := (rekey_eq_ok h).2.2.2 r hr
  rw [hk] at hpk'
  exact hne (kw.unwrap_wrap_eq hpk').1.symm

/-- After a successful `rekey`, every row holds the key it held, wrapped under the store key the
config `key` row now names. -/
theorem rekey_rewraps_every_row {kw : KeyWrap} {sk : StoreKey} {w w' : World} {u : Unit}
    (h : rekey kw sk w = .ok u w') :
    w'.db.storeKey = sk ∧ w'.db.profiles.map ProfileRow.id = w.db.profiles.map ProfileRow.id ∧
      ∀ r ∈ w.db.profiles, ∃ pk, kw.unwrap w.keyCache.storeKey r.profileKey = .ok pk ∧
        ∃ r' ∈ w'.db.profiles, r'.id = r.id ∧ r'.name = r.name ∧
          kw.unwrap w'.db.storeKey r'.profileKey = .ok pk := by
  obtain ⟨hsk, -, hp, hop⟩ := rekey_eq_ok h
  refine ⟨hsk, by simp [hp, Function.comp_def], fun r hr => ?_⟩
  obtain ⟨pk, hpk⟩ := hop r hr
  refine ⟨pk, hpk, _, hp ▸ List.mem_map_of_mem _ hr, rewrap_id _ _ _ _, rewrap_name _ _ _ _, ?_⟩
  rw [rewrap_of_opens hpk, hsk]
  exact kw.unwrap_wrap pk sk

/-! ### The store key the `KeyCache` keeps -/

/-- A successful `rekey` to a store key other than the `KeyCache`'s leaves the cache on the old
key: the config `key` row names another one, the row of a profile created next does not open
under it, and, once a row has been re-wrapped, no second `rekey` succeeds. -/
theorem rekey_leaves_cache_key_stale {kw : KeyWrap} {sk : StoreKey} {w w' : World} {u : Unit}
    (h : rekey kw sk w = .ok u w') (hne : sk ≠ w.keyCache.storeKey) :
    w'.keyCache.storeKey ≠ w'.db.storeKey ∧
      (∀ (name : Option String) (randomName : String) (pk : ProfileKey) (n : String)
          (w'' : World), createProfile kw name randomName pk w' = .ok n w'' →
        ∃ r ∈ w''.db.profiles, r.name = n ∧ ∀ k, kw.unwrap w''.db.storeKey r.profileKey ≠ .ok k) ∧
      (w.db.profiles ≠ [] → ∀ (sk' : StoreKey) (fs : List (Option Error)) (u' : Unit)
          (w'' : World), rekey kw sk' { w' with faults := fs } ≠ .ok u' w'') := by
  obtain ⟨hsk, hc, hp, hop⟩ := rekey_eq_ok h
  refine ⟨by rw [hc, hsk]; exact hne.symm, fun name randomName pk n w'' hcr => ?_, fun hne' => ?_⟩
  · obtain ⟨rfl, db, hdb, hdb', -⟩ := createProfile_eq_ok hcr
    obtain ⟨-, hrows, hs⟩ := Db.insertProfile_eq_ok hdb
    refine ⟨⟨w'.db.newProfileId, _, encodeProfileKey kw pk w'.keyCache.storeKey⟩,
      by rw [hdb', hrows]; exact List.mem_append_right _ (List.mem_singleton_self _), rfl,
      fun k hk => ?_⟩
    rw [hdb', hs, hsk] at hk
    exact hne ((kw.unwrap_wrap_eq hk).1.trans (congrArg KeyCache.storeKey hc))
  · obtain ⟨r, hr⟩ := List.exists_mem_of_ne_nil _ hne'
    obtain ⟨pk, hpk⟩ := hop r hr
    intro sk' fs u' w''
    exact rekey_blocked (hp ▸ List.mem_map_of_mem _ hr) (by rw [rewrap_of_opens hpk])
      (by rw [hc]; exact hne) sk' u' w''

/-- A store with no profile, under store key 0. -/
def noProfiles : World where
  db := Db.ofProfiles "a" ⟨0⟩ true false [] 1 (by decide)
  keyCache := KeyCache.new ⟨0⟩
  activeProfile := "a"
  faults := []

/-- `noProfiles` rekeyed to store key 1. -/
def rekeyedNoProfiles : World where
  db := Db.ofProfiles "a" ⟨1⟩ true false [] 1 (by decide)
  keyCache := KeyCache.new ⟨0⟩
  activeProfile := "a"
  faults := []

theorem rekey_then_create_profile :
    rekey KeyWrap.symbolic ⟨1⟩ noProfiles = .ok () rekeyedNoProfiles ∧
      (⟨1⟩ : StoreKey) ≠ noProfiles.keyCache.storeKey ∧
      rekeyedNoProfiles.keyCache.storeKey ≠ rekeyedNoProfiles.db.storeKey ∧
      (∀ (name : Option String) (randomName : String) (pk : ProfileKey) (n : String)
          (w'' : World), createProfile KeyWrap.symbolic name randomName pk rekeyedNoProfiles =
            .ok n w'' → ∃ r ∈ w''.db.profiles, r.name = n ∧
              ∀ k, KeyWrap.symbolic.unwrap w''.db.storeKey r.profileKey ≠ .ok k) ∧
      (noProfiles.db.profiles ≠ [] → ∀ (sk' : StoreKey) (fs : List (Option Error)) (u' : Unit)
          (w'' : World), rekey KeyWrap.symbolic sk' { rekeyedNoProfiles with faults := fs } ≠
            .ok u' w'') :=
  ⟨rfl, by decide, rekey_leaves_cache_key_stale rfl (by decide)⟩

/-! ### A rekey that fails -/

/-- A failed `rekey` to `sk` has re-wrapped the rows of a prefix of its snapshot, in ascending id
order, and left the other rows, the config `key` row and the `KeyCache` as they were. Once that
prefix holds a row and `sk` is not the cache's store key, no later `rekey` succeeds, whatever key
it is given and whatever the environment answers. -/
theorem rekey_failure_rewraps_prefix {kw : KeyWrap} {sk : StoreKey} {w w' : World} {e : Fault}
    (h : rekey kw sk w = .error e w') :
    ∃ j ≤ (profileSnapshot w.db).length, Rewrapped kw sk ((profileSnapshot w.db).take j) w w' ∧
      (0 < j → sk ≠ w.keyCache.storeKey →
        ∀ (sk' : StoreKey) (fs : List (Option Error)) (u : Unit) (w'' : World),
          rekey kw sk' { w' with faults := fs } ≠ .ok u w'') := by
  obtain ⟨j, hj, hR⟩ := rekey_eq_error h
  refine ⟨j, hj, hR, fun hj0 hne sk' fs u w'' => ?_⟩
  have hne' : (profileSnapshot w.db).take j ≠ [] := by
    rw [Ne, List.take_eq_nil_iff]
    rintro (h0 | h0)
    · omega
    · rw [h0] at hj; simp at hj; omega
  obtain ⟨x, hx⟩ := List.exists_mem_of_ne_nil _ hne'
  obtain ⟨r, hr, hid, hkey⟩ := mem_profileSnapshot (List.mem_of_mem_take hx)
  obtain ⟨pk, hpk⟩ := hR.opens x hx
  rw [← hkey] at hpk
  -- The first row of the prefix is now wrapped under `sk`.
  have hmem : rewrap kw w.keyCache.storeKey sk r ∈ w'.db.profiles := by
    rw [hR.profiles]
    exact List.mem_map.2 ⟨r, hr, if_pos (hid ▸ List.mem_map_of_mem _ hx)⟩
  have hc : ({ w' with faults := fs } : World).keyCache.storeKey = w.keyCache.storeKey :=
    congrArg KeyCache.storeKey hR.keyCache
  exact @rekey_blocked kw { w' with faults := fs } _ pk sk hmem (by rw [rewrap_of_opens hpk])
    (hc ▸ hne) sk' u w''

/-- Two profiles wrapped under store key 0, which the `KeyCache` holds. -/
def twoProfiles (faults : List (Option Error)) : World where
  db := Db.ofProfiles "a" ⟨0⟩ true false
    [⟨1, "a", sealBytes 0 5⟩, ⟨2, "b", sealBytes 0 6⟩] 3 (by decide)
  keyCache := KeyCache.new ⟨0⟩
  activeProfile := "a"
  faults := faults

/-- A failure of the storage. -/
def ioError : Error := ⟨.backend, "I/O error"⟩

/-- The environment fails the fifteenth external call of a rekey of `twoProfiles`: the
`UPDATE_PROFILE` of the second profile. -/
def failSecondUpdate : List (Option Error) := List.replicate 14 none ++ [some ioError]

/-- `twoProfiles` once the rekey to store key 1 has stopped at its second `UPDATE_PROFILE`. -/
def halfRekeyed : World where
  db := Db.ofProfiles "a" ⟨0⟩ true false
    [⟨1, "a", sealBytes 1 5⟩, ⟨2, "b", sealBytes 0 6⟩] 3 (by decide)
  keyCache := KeyCache.new ⟨0⟩
  activeProfile := "a"
  faults := []

/-- `twoProfiles` rekeyed to store key 1. -/
def twoRekeyed : World where
  db := Db.ofProfiles "a" ⟨1⟩ true false
    [⟨1, "a", sealBytes 1 5⟩, ⟨2, "b", sealBytes 1 6⟩] 3 (by decide)
  keyCache := KeyCache.new ⟨0⟩
  activeProfile := "a"
  faults := []

theorem rekey_two_profiles :
    rekey KeyWrap.symbolic ⟨1⟩ (twoProfiles []) = .ok () twoRekeyed ∧
      twoRekeyed.db.storeKey = ⟨1⟩ ∧
      twoRekeyed.db.profiles.map ProfileRow.id = (twoProfiles []).db.profiles.map ProfileRow.id ∧
      ∀ r ∈ (twoProfiles []).db.profiles, ∃ pk,
        KeyWrap.symbolic.unwrap (twoProfiles []).keyCache.storeKey r.profileKey = .ok pk ∧
        ∃ r' ∈ twoRekeyed.db.profiles, r'.id = r.id ∧ r'.name = r.name ∧
          KeyWrap.symbolic.unwrap twoRekeyed.db.storeKey r'.profileKey = .ok pk :=
  ⟨rfl, rekey_rewraps_every_row rfl⟩

theorem rekey_failure_two_profiles :
    rekey KeyWrap.symbolic ⟨1⟩ (twoProfiles failSecondUpdate) =
        .error (.error ioError) halfRekeyed ∧
      ∃ j ≤ (profileSnapshot (twoProfiles failSecondUpdate).db).length,
        Rewrapped KeyWrap.symbolic ⟨1⟩ ((profileSnapshot (twoProfiles failSecondUpdate).db).take j)
          (twoProfiles failSecondUpdate) halfRekeyed ∧
        (0 < j → (⟨1⟩ : StoreKey) ≠ (twoProfiles failSecondUpdate).keyCache.storeKey →
          ∀ (sk' : StoreKey) (fs : List (Option Error)) (u : Unit) (w'' : World),
            rekey KeyWrap.symbolic sk' { halfRekeyed with faults := fs } ≠ .ok u w'') :=
  ⟨rfl, rekey_failure_rewraps_prefix rfl⟩

/-- The rekey of `twoProfiles` that fails at its second `UPDATE_PROFILE` has changed a row, and
no rekey from where it stopped succeeds, even when the storage fails nothing. -/
theorem rekey_failure_not_recoverable :
    rekey KeyWrap.symbolic ⟨1⟩ (twoProfiles failSecondUpdate) =
        .error (.error ioError) halfRekeyed ∧
      halfRekeyed.db.profiles ≠ (twoProfiles failSecondUpdate).db.profiles ∧
      ∀ (sk : StoreKey) (u : Unit) (w : World),
        rekey KeyWrap.symbolic sk { halfRekeyed with faults := [] } ≠ .ok u w := by
  refine ⟨rfl, by decide, fun sk u w => ?_⟩
  exact @rekey_blocked KeyWrap.symbolic { halfRekeyed with faults := [] } ⟨1, "a", sealBytes 1 5⟩
    ⟨5⟩ ⟨1⟩ (by decide) rfl (by decide) sk u w

end AskarOdbc
