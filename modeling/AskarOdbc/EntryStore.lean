import AskarOdbc.Entries

/-! The entry store over runs of `update`. From a store whose cache agrees with its profile rows,
every run of calls that return leaves items that decrypt to the abstract store the calls build in
order, each call reading the clock for its expiry at its own instant `UpdateCall.now`
(`updateAll_refines`): an `Insert` adds its entry, a `Replace` sets an entry already there and
creates none (`UPDATE_ITEM` matches no row for an absent entry, and with a tag list the call then
panics at `GET_ITEM_ID`), a `Remove` deletes its entry. The tag rows: an `Insert` attaches exactly
its tags to its new row and touches no other entry's tags, when no old tag row can point at the id
the row is given (a schema that gives out no id twice, `Db.reusesIds`, or one with no tag row left
without its item), a `Remove` leaves every other entry's tags alone, and with a schema that cascades
deletes no tag row ever points at a missing item (`Db.NoOrphans`). A `Replace` deletes the tag rows
whose item id is the session's profile id (`DELETE_TAG` is given `pid`), which are in general
another entry's, and leaves its own entry's old tags in place
(`replace_deletes_tags_by_profile_id`). -/

namespace AskarOdbc

open Op

/-! ### The tags of an entry -/

/-- A tag row read back as an encrypted tag: `plaintext` is 1 for a plaintext tag. -/
def TagRow.decode (t : TagRow) : EncEntryTag := ⟨t.name, t.value, t.plaintext = 1⟩

@[simp] theorem TagRow.decode_tagRow (itemId : Int) (t : EncEntryTag) :
    (tagRow itemId t).decode = t := by
  cases t with
  | mk n v p => cases p <;> rfl

section Views

variable (codec : EntryCodec) (keys : Int → ProfileKey)

/-- The tags of an entry: the tag rows under its row's id, decrypted under its profile's key. -/
def Db.entryTags (db : Db) (e : EntryId) : Option (List (Option EntryTag)) :=
  (db.itemRow codec keys e).map fun r =>
    (db.itemsTags.filter (·.itemId = r.id)).map fun t =>
      codec.decryptTag (keys e.profileId) t.decode

end Views

/-- Every tag row points at an item id the table has given out. -/
def Db.TagsBelow (db : Db) : Prop := ∀ t ∈ db.itemsTags, t.itemId < db.nextItemId

/-- Every tag row points at an item row. -/
def Db.NoOrphans (db : Db) : Prop := ∀ t ∈ db.itemsTags, t.itemId ∈ db.items.map ItemRow.id

variable {codec : EntryCodec} {keys : Int → ProfileKey}

section Rows

variable {et : Int → Except Error String}

@[simp] theorem Db.itemRow_withTags (db : Db) (ts : List TagRow) (e : EntryId) :
    ({ db with itemsTags := ts } : Db).itemRow codec keys e = db.itemRow codec keys e := rfl

/-- The rows the tag loop adds are all under the id `GET_ITEM_ID` found, and there are some
only when the call has a tag list. -/
theorem mem_newTags {tags : Option (List EntryTag)} {f : EntryTag → EncEntryTag} {itemId : Int}
    {t : TagRow} (h : t ∈ ((tags.getD []).map f).map (tagRow itemId)) :
    t.itemId = itemId ∧ tags ≠ none := by
  cases tags with
  | none => simp at h
  | some ts =>
    simp only [Option.getD_some, List.map_map, List.mem_map] at h
    obtain ⟨_, _, rfl⟩ := h
    exact ⟨rfl, by simp⟩

/-! ### The invariants of the tag rows -/

theorem Db.deleteItem_itemsTags_subset (db : Db) (profileId kind : Int) (category name : Bytes) :
    (db.deleteItem profileId kind category name).itemsTags ⊆ db.itemsTags := by
  unfold Db.deleteItem
  dsimp only
  split
  · exact (List.filter_sublist _).subset
  · exact List.Subset.refl _

/-- The item statements of an `Insert | Replace` drop tag rows and add none, keep every item id,
and give no id back. -/
theorem Db.itemStatements_frame {op : EntryOperation} {e : EntryId} {v : Bytes}
    {expiry : Option String} {db db₁ : Db}
    (hop : op = .insert ∧ db.insertEntryRow codec keys e v expiry = .ok db₁ ∨
      op = .replace ∧ db₁ = (db.updateEntryRow codec keys e v expiry).deleteTag e.profileId) :
    db₁.itemsTags ⊆ db.itemsTags ∧ db.items.map ItemRow.id ⊆ db₁.items.map ItemRow.id ∧
      db.nextItemId ≤ db₁.nextItemId := by
  rcases hop with ⟨-, hitem⟩ | ⟨-, rfl⟩
  · obtain ⟨-, hitems, hnext, htags, -⟩ := Db.insertEntryRow_eq_ok hitem
    refine ⟨by rw [htags]; exact List.Subset.refl _, ?_, by omega⟩
    rw [hitems, List.map_append]
    exact List.subset_append_left _ _
  · refine ⟨(List.filter_sublist _).subset, fun i hi => ?_, le_refl _⟩
    simpa [Db.deleteTag, Db.updateItem, List.map_map, Function.comp_def] using hi

/-- Tag rows keep pointing at ids the table has given out. -/
theorem Db.tagsBelow_applyUpdate {op : EntryOperation} {e : EntryId} {v : Bytes}
    {tags : Option (List EntryTag)} {ms : Option Int} {db db' : Db} (hb : db.TagsBelow)
    (h : db.applyUpdate codec keys et op e v tags ms = some db') : db'.TagsBelow := by
  rcases Db.applyUpdate_cases h with ⟨-, rfl⟩ | ⟨expiry, db₁, itemId, -, hop, hid, rfl⟩
  · exact fun t ht => hb t (Db.deleteItem_itemsTags_subset _ _ _ _ _ ht)
  obtain ⟨hsub, -, hle⟩ := Db.itemStatements_frame hop
  intro t ht
  rcases List.mem_append.1 ht with ht | ht
  · exact lt_of_lt_of_le (hb t (hsub ht)) hle
  · obtain ⟨rfl, hne⟩ := mem_newTags ht
    obtain ⟨r, hr, hrid⟩ := List.mem_map.1 (Db.entryItemId_mem (hid hne))
    exact hrid ▸ db₁.items_id_lt r hr

/-- With a schema that cascades deletes, tag rows keep pointing at item rows. -/
theorem Db.noOrphans_applyUpdate {op : EntryOperation} {e : EntryId} {v : Bytes}
    {tags : Option (List EntryTag)} {ms : Option Int} {db db' : Db}
    (hc : db.cascadeTags = true) (hn : db.NoOrphans)
    (h : db.applyUpdate codec keys et op e v tags ms = some db') : db'.NoOrphans := by
  rcases Db.applyUpdate_cases h with ⟨-, rfl⟩ | ⟨expiry, db₁, itemId, -, hop, hid, rfl⟩
  · intro t ht
    simp only [Db.deleteItem, hc, if_true, List.mem_filter, decide_eq_true_eq] at ht
    obtain ⟨ht, hnot⟩ := ht
    obtain ⟨r, hr, hrid⟩ := List.mem_map.1 (hn t ht)
    refine List.mem_map.2 ⟨r, List.mem_filter.2 ⟨hr, decide_eq_true fun hkey => hnot ?_⟩, hrid⟩
    exact hrid ▸ List.mem_map.2 ⟨r, List.mem_filter.2 ⟨hr, decide_eq_true hkey⟩, rfl⟩
  obtain ⟨hsub, hids, -⟩ := Db.itemStatements_frame hop
  intro t ht
  rcases List.mem_append.1 ht with ht | ht
  · exact hids (hn t (hsub ht))
  · obtain ⟨rfl, hne⟩ := mem_newTags ht
    exact Db.entryItemId_mem (hid hne)

/-! ### What each operation does to the tags -/

/-- No tag row points at the id the next `INSERT_ITEM` gives, when the table gives out no id
twice and every tag row points at an id given out, or when every tag row points at an item
row. -/
theorem Db.tag_ne_newItemId {db : Db} (h : db.reusesIds = false ∧ db.TagsBelow ∨ db.NoOrphans) :
    ∀ t ∈ db.itemsTags, t.itemId ≠ db.newItemId := by
  intro t ht
  rcases h with ⟨hr, hb⟩ | hn
  · simpa [Db.newItemId, nextId, hr] using (hb t ht).ne
  · obtain ⟨r, hr, hid⟩ := List.mem_map.1 (hn t ht)
    exact hid ▸ (db.id_lt_newItemId r hr).ne

/-- A successful `Insert` attaches exactly its tags to its new row, and leaves every other
entry's tags as they were, when no tag row points at the id its row is given. -/
theorem Db.entryTags_insert {e : EntryId} {v : Bytes} {tags : Option (List EntryTag)}
    {ms : Option Int} {db db' : Db} (hb : db.reusesIds = false ∧ db.TagsBelow ∨ db.NoOrphans)
    (h : db.applyUpdate codec keys et .insert e v tags ms = some db') (e' : EntryId) :
    db'.entryTags codec keys e' =
      if e' = e then some ((tags.getD []).map some) else db.entryTags codec keys e' := by
  rcases Db.applyUpdate_cases h with ⟨⟨⟩, -⟩ |
    ⟨expiry, db₁, itemId, -, ⟨-, hitem⟩ | ⟨⟨⟩, -⟩, hid, rfl⟩
  obtain ⟨-, -, -, htags, -⟩ := Db.insertEntryRow_eq_ok hitem
  set rows := ((tags.getD []).map (codec.encryptTag (keys e.profileId))).map (tagRow itemId)
  have hrows : ∀ t ∈ rows, t.itemId = db.newItemId := by
    intro t ht
    obtain ⟨rfl, hne⟩ := mem_newTags ht
    have hi := hid hne
    rw [Db.entryItemId_eq, Db.itemRow_insertEntryRow hitem, if_pos rfl] at hi
    exact (Option.some.inj hi).symm
  simp only [Db.entryTags, Db.itemRow_withTags, Db.itemRow_insertEntryRow hitem, htags,
    List.filter_append]
  split
  · subst e'
    have hold : db.itemsTags.filter (fun t => t.itemId = db.newItemId) = [] :=
      List.filter_eq_nil_iff.2 fun t ht => by simpa using Db.tag_ne_newItemId hb t ht
    have hnew : rows.filter (fun t => t.itemId = db.newItemId) = rows :=
      List.filter_eq_self.2 fun t ht => by simpa using hrows t ht
    simp only [Option.map_some', EntryId.newRow]
    rw [hold, hnew, List.nil_append]
    simp [rows, Function.comp_def, codec.decryptTag_encryptTag]
  · cases hr : db.itemRow codec keys e' with
    | none => rfl
    | some r =>
      have hlt := db.id_lt_newItemId r (Db.itemRow_identity hr).1
      have hnew : rows.filter (fun t => t.itemId = r.id) = [] :=
        List.filter_eq_nil_iff.2 fun t ht => by rw [hrows t ht]; simpa using hlt.ne'
      simp [hnew]

theorem Db.mem_getItemId {db : Db} {e : EntryId} {i : Int} :
    i ∈ db.getItemId e.profileId e.kind.toI16 (codec.encryptCategory (keys e.profileId) e.category)
      (codec.encryptName (keys e.profileId) e.name) ↔
      ∃ r ∈ db.items, r.identity = e.columns codec keys ∧ r.id = i := by
  simp [Db.getItemId, EntryId.columns, and_assoc]

/-- The rows `GET_ITEM_ID` finds for an entry are not another entry's row. -/
theorem Db.id_not_mem_getItemId {db : Db} {e e' : EntryId} {r : ItemRow} (hne : e' ≠ e)
    (hr : db.itemRow codec keys e' = some r) :
    r.id ∉ db.getItemId e.profileId e.kind.toI16
      (codec.encryptCategory (keys e.profileId) e.category)
      (codec.encryptName (keys e.profileId) e.name) := by
  obtain ⟨hmem, hid⟩ := Db.itemRow_identity hr
  rw [Db.mem_getItemId]
  rintro ⟨r₀, hr₀, hid₀, hrr⟩
  obtain rfl := List.inj_on_of_nodup_map db.items_id_nodup hr₀ hmem hrr
  exact hne (EntryId.columns_injective (hid.symm.trans hid₀))

/-- After `DELETE_ITEM` the entry has no row, and every other entry keeps its tags, whether or
not the deletion cascades. -/
theorem Db.entryTags_deleteEntryRow (db : Db) (e e' : EntryId) :
    (db.deleteEntryRow codec keys e).entryTags codec keys e' =
      if e' = e then none else db.entryTags codec keys e' := by
  simp only [Db.entryTags, Db.itemRow_deleteEntryRow]
  split
  · rfl
  cases hr : db.itemRow codec keys e' with
  | none => rfl
  | some r =>
    have hout := Db.id_not_mem_getItemId ‹_› hr
    simp only [Option.map_some', Db.deleteItem]
    split
    · rw [List.filter_filter]
      congr 3; funext t
      by_cases ht : t.itemId = r.id <;> simp [ht, hout]
    · rfl

/-- `DELETE_ITEM` of an absent entry changes neither table. -/
theorem Db.deleteEntryRow_absent {db : Db} {e : EntryId} (h : db.itemRow codec keys e = none) :
    (db.deleteEntryRow codec keys e).items = db.items ∧
      (db.deleteEntryRow codec keys e).itemsTags = db.itemsTags := by
  have hno : ∀ r ∈ db.items, r.identity ≠ e.columns codec keys := fun r hr hre =>
    by simpa [h] using (List.find?_eq_none.1 h) r hr (by simpa using hre)
  have hids : db.getItemId e.profileId e.kind.toI16
      (codec.encryptCategory (keys e.profileId) e.category)
      (codec.encryptName (keys e.profileId) e.name) = [] :=
    List.eq_nil_iff_forall_not_mem.2 fun i hi =>
      let ⟨r, hr, hre, _⟩ := Db.mem_getItemId.1 hi
      hno r hr hre
  refine ⟨List.filter_eq_self.2 fun r hr => by simpa [EntryId.columns] using hno r hr, ?_⟩
  simp only [Db.deleteItem, hids]
  split <;> simp

/-- A successful `Replace` deletes the tag rows whose item id is its entry's profile id, keeps
every other tag row, its entry's own old ones too unless its row's id is that profile id, and
adds its tags under its entry's row. -/
theorem Db.itemsTags_replace {e : EntryId} {v : Bytes} {tags : Option (List EntryTag)}
    {ms : Option Int} {db db' : Db}
    (h : db.applyUpdate codec keys et .replace e v tags ms = some db') :
    ∃ itemId, (tags ≠ none → (db.itemRow codec keys e).map ItemRow.id = some itemId) ∧
      db'.itemsTags = db.itemsTags.filter (fun t => t.itemId ≠ e.profileId) ++
        ((tags.getD []).map (codec.encryptTag (keys e.profileId))).map (tagRow itemId) := by
  rcases Db.applyUpdate_cases h with ⟨⟨⟩, -⟩ |
    ⟨expiry, db₁, itemId, -, ⟨⟨⟩, -⟩ | ⟨-, rfl⟩, hid, rfl⟩
  refine ⟨itemId, fun hne => ?_, rfl⟩
  have hi := hid hne
  rw [Db.entryItemId_eq, Db.deleteTag, Db.itemRow_withTags, Db.itemRow_updateEntryRow, if_pos rfl,
    Option.map_map] at hi
  exact hi

/-- `INSERT_ITEM` refuses an entry that is there. -/
theorem Db.insertEntryRow_refused {db db₁ : Db} {e : EntryId} {v : Bytes}
    {expiry : Option String} (hex : db.entries codec keys e ≠ none) :
    db.insertEntryRow codec keys e v expiry ≠ .ok db₁ := by
  intro hitem
  cases hr : db.itemRow codec keys e with
  | none => exact hex (by simp [Db.entries, hr])
  | some r =>
    obtain ⟨hmem, hid⟩ := Db.itemRow_identity hr
    exact (Db.insertEntryRow_eq_ok hitem).1 (hid ▸ List.mem_map_of_mem _ hmem)

end Rows

/-! ### Runs of calls -/

/-- A call of `update` by a session: the session, the arguments, and `now`, the instant at which
the call's `expiry_timestamp` reads the clock. -/
structure UpdateCall where
  session : OdbcSession
  kind : EntryKind
  operation : EntryOperation
  category : Bytes
  name : Bytes
  value : Option Bytes
  tags : Option (List EntryTag)
  expiryMs : Option Int
  now : Int
  deriving DecidableEq, Repr

namespace UpdateCall

/-- The call, as `update` runs it: `et now` is `expiry_timestamp` followed by the formatting, with
the clock reading `now`, so each call of a run reads its own instant. -/
def run (kw : KeyWrap) (codec : EntryCodec) (et : Int → Int → Except Error String)
    (c : UpdateCall) : Op Unit :=
  update codec (et c.now) kw c.session c.kind c.operation c.category c.name c.value c.tags
    c.expiryMs

/-- The entry the call is on. -/
def entry (ids : String → Int) (c : UpdateCall) : EntryId :=
  ⟨ids c.session.profile, c.kind, c.category, c.name⟩

/-- What an `Insert | Replace` asks its entry to hold, with the expiry it works out at its
instant. -/
def held (et : Int → Int → Except Error String) (c : UpdateCall) : EntryValue :=
  ⟨some (c.value.getD []), (storedExpiry (et c.now) c.expiryMs).toOption.join⟩

end UpdateCall

/-- Calls of `update` run one after another, each to its end: the world they leave when every
one returns. -/
def updateAll (kw : KeyWrap) (codec : EntryCodec) (et : Int → Int → Except Error String) :
    List UpdateCall → World → Option World
  | [], w => some w
  | c :: cs, w => (returnedIn (c.run kw codec et w)).bind (updateAll kw codec et cs)

/-- The abstract store once the calls have been applied in order. -/
def Entries.applyAll (et : Int → Int → Except Error String) (ids : String → Int) :
    Entries → List UpdateCall → Entries
  | m, [] => m
  | m, c :: cs => (m.apply c.operation (c.entry ids) (c.held et)).applyAll et ids cs

variable {kw : KeyWrap} {ids : String → Int} {et : Int → Int → Except Error String}

/-- A run of calls that each return keeps what the sessions resolve, builds the abstract store,
and keeps the invariants of the tag rows. -/
theorem updateAll_refines {calls : List UpdateCall} {w w' : World}
    (hw : ProfilesAgree kw ids keys w) (h : updateAll kw codec et calls w = some w') :
    ProfilesAgree kw ids keys w' ∧
      w'.db.entries codec keys = (w.db.entries codec keys).applyAll et ids calls ∧
      (w.db.TagsBelow → w'.db.TagsBelow) ∧
      (w.db.cascadeTags = true → w.db.NoOrphans → w'.db.NoOrphans) := by
  induction calls generalizing w with
  | nil => cases h; exact ⟨hw, rfl, id, fun _ => id⟩
  | cons c cs ih =>
    obtain ⟨w₁, h₁, h⟩ := Option.bind_eq_some.1 h
    obtain ⟨u, h₁⟩ := returnedIn_eq_some h₁
    obtain ⟨hw₁, happ⟩ := update_eq_ok hw h₁
    obtain ⟨hw', hent, hb, hn⟩ := ih hw₁ h
    have hc := (Db.applyUpdate_profiles happ).2
    refine ⟨hw', ?_, fun hb₀ => hb (Db.tagsBelow_applyUpdate hb₀ happ),
      fun hc₀ hn₀ => hn (hc ▸ hc₀) (Db.noOrphans_applyUpdate hc₀ hn₀ happ)⟩
    rw [hent, Db.entries_applyUpdate happ]
    rfl

/-- An `Insert` that returns attaches exactly its tags to its entry and leaves every other
entry's tags alone. -/
theorem UpdateCall.entryTags_insert {c : UpdateCall} {u : Unit} {w w' : World}
    (hw : ProfilesAgree kw ids keys w) (hop : c.operation = .insert)
    (hb : w.db.reusesIds = false ∧ w.db.TagsBelow ∨ w.db.NoOrphans)
    (h : c.run kw codec et w = .ok u w') (e : EntryId) :
    w'.db.entryTags codec keys e =
      if e = c.entry ids then some ((c.tags.getD []).map some)
      else w.db.entryTags codec keys e := by
  obtain ⟨-, happ⟩ := update_eq_ok hw h
  rw [hop] at happ
  exact Db.entryTags_insert hb happ e

/-- An `Insert` on an entry that is there stops, with the tables unchanged: whether it stops
before its `INSERT_ITEM` or at it, nothing after it runs. -/
theorem UpdateCall.insert_present_stops {c : UpdateCall} {w : World}
    (hw : ProfilesAgree kw ids keys w) (hop : c.operation = .insert)
    (hex : w.db.entries codec keys (c.entry ids) ≠ none) :
    ∃ f w', c.run kw codec et w = .error f w' ∧ w'.db = w.db := by
  cases hr : c.run kw codec et w with
  | ok u w' =>
    obtain ⟨-, happ⟩ := update_eq_ok hw hr
    rw [hop] at happ
    rcases Db.applyUpdate_cases happ with ⟨⟨⟩, -⟩ | ⟨_, _, _, -, ⟨-, hitem⟩ | ⟨⟨⟩, -⟩, -⟩
    exact absurd hitem (Db.insertEntryRow_refused hex)
  | error f w' =>
    refine ⟨f, w', rfl, ?_⟩
    rcases update_eq_error hw hr with hdb | ⟨-, _, -, ⟨hne, -⟩ | ⟨_, _, _, _, hitem, -⟩⟩
    · exact hdb
    · exact absurd hop hne
    · rw [hop] at hitem
      exact absurd hitem (Db.insertEntryRow_refused hex)

/-- A `Remove` that returns leaves its entry without a row and every other entry's tags alone,
and changes neither table when its entry is absent. -/
theorem UpdateCall.entryTags_remove {c : UpdateCall} {u : Unit} {w w' : World}
    (hw : ProfilesAgree kw ids keys w) (hop : c.operation = .remove)
    (h : c.run kw codec et w = .ok u w') :
    (∀ e, w'.db.entryTags codec keys e =
      if e = c.entry ids then none else w.db.entryTags codec keys e) ∧
    (w.db.entries codec keys (c.entry ids) = none →
      w'.db.items = w.db.items ∧ w'.db.itemsTags = w.db.itemsTags) := by
  obtain ⟨-, happ⟩ := update_eq_ok hw h
  rw [hop] at happ
  rcases Db.applyUpdate_cases happ with ⟨-, hdb⟩ | ⟨_, _, _, _, ⟨⟨⟩, -⟩ | ⟨⟨⟩, -⟩, -⟩
  rw [hdb]
  exact ⟨Db.entryTags_deleteEntryRow _ _, fun hnone =>
    Db.deleteEntryRow_absent (Option.map_eq_none'.1 hnone)⟩

/-- From a store whose cache agrees with its profile rows, as `ids` and `keys` name them: every run
of calls that return leaves items that decrypt to the abstract store the calls build, keeps every
tag row pointing at an id given out, and, when the schema cascades deletes, at an item row; an
`Insert` that returns attaches exactly its tags to its entry and leaves the other entries' tags
alone, when the schema gives out no id twice and every tag row points at an id given out, or when no
tag row points at a missing item, and one on an entry that is there stops with the tables unchanged;
a `Remove` that returns leaves its entry without a row and the other entries' tags alone, and
changes neither table when its entry is absent. -/
theorem update_refines_entry_store {w : World} (hw : ProfilesAgree kw ids keys w) :
    (∀ calls w', updateAll kw codec et calls w = some w' →
      ProfilesAgree kw ids keys w' ∧
      w'.db.entries codec keys = (w.db.entries codec keys).applyAll et ids calls ∧
      (w.db.TagsBelow → w'.db.TagsBelow) ∧
      (w.db.cascadeTags = true → w.db.NoOrphans → w'.db.NoOrphans)) ∧
    (∀ (c : UpdateCall) u w', c.operation = .insert →
      w.db.reusesIds = false ∧ w.db.TagsBelow ∨ w.db.NoOrphans →
      c.run kw codec et w = .ok u w' → ∀ e, w'.db.entryTags codec keys e =
        if e = c.entry ids then some ((c.tags.getD []).map some) else w.db.entryTags codec keys e) ∧
    (∀ c : UpdateCall, c.operation = .insert → w.db.entries codec keys (c.entry ids) ≠ none →
      ∃ f w', c.run kw codec et w = .error f w' ∧ w'.db = w.db) ∧
    (∀ (c : UpdateCall) u w', c.operation = .remove → c.run kw codec et w = .ok u w' →
      (∀ e, w'.db.entryTags codec keys e =
        if e = c.entry ids then none else w.db.entryTags codec keys e) ∧
      (w.db.entries codec keys (c.entry ids) = none →
        w'.db.items = w.db.items ∧ w'.db.itemsTags = w.db.itemsTags)) :=
  ⟨fun _ _ => updateAll_refines hw,
    fun _ _ _ hop hb h => UpdateCall.entryTags_insert hw hop hb h,
    fun _ hop hex => UpdateCall.insert_present_stops hw hop hex,
    fun _ _ _ hop h => UpdateCall.entryTags_remove hw hop h⟩

theorem profilesAgree_profileACreated :
    ProfilesAgree KeyWrap.symbolic (fun _ => 1) (fun _ => ⟨7⟩) profileACreated := by
  constructor
  · intro r hr
    simp only [profileACreated, Db.ofProfiles, List.mem_singleton] at hr
    subst hr
    exact ⟨rfl, ⟨0⟩, rfl⟩
  · intro n pid key h
    simp only [profileACreated, KeyCache.getProfile_addProfile] at h
    split at h
    · cases h; exact ⟨rfl, rfl⟩
    · cases h

/-- The `Insert` of entry `[1]/[2]` of profile `a`, with value `[3]` and one plaintext tag. -/
def insertA : UpdateCall :=
  ⟨⟨"a"⟩, .item, .insert, [1], [2], some [3], some [⟨[4], [5], true⟩], none, 0⟩

/-- `profileACreated` once `insertA` has run. -/
def entryAInserted : World :=
  { profileACreated with
    db := profileACreated.db.withEntries [⟨0, 1, 2, [1], [2], [3], none⟩] [⟨0, [4], [5], 1⟩] 1
      (by decide) }

theorem entry_store_after_insert :
    ProfilesAgree KeyWrap.symbolic (fun _ => 1) (fun _ => ⟨7⟩) profileACreated ∧
      updateAll KeyWrap.symbolic EntryCodec.plain (fun _ _ => .ok "") [insertA] profileACreated =
        some entryAInserted ∧
      entryAInserted.db.entries EntryCodec.plain (fun _ => ⟨7⟩) =
        (profileACreated.db.entries EntryCodec.plain (fun _ => ⟨7⟩)).applyAll (fun _ _ => .ok "")
          (fun _ => 1) [insertA] :=
  have hw := profilesAgree_profileACreated
  have h : updateAll KeyWrap.symbolic EntryCodec.plain (fun _ _ => .ok "") [insertA]
      profileACreated = some entryAInserted := rfl
  ⟨hw, h, ((update_refines_entry_store hw).1 _ _ h).2.1⟩

/-- A `Replace` of entry `[1]/[2]` of profile `a`, which has no entry yet, with no tag list. -/
def replaceA : UpdateCall := ⟨⟨"a"⟩, .item, .replace, [1], [2], some [3], none, none, 0⟩

/-- A `Replace` of an absent entry returns, and the entry is still absent: `UPDATE_ITEM` matches
no row, and nothing inserts one. -/
theorem replace_absent_entry_returns_without_it :
    updateAll KeyWrap.symbolic EntryCodec.plain (fun _ _ => .ok "") [replaceA] profileACreated =
        some profileACreated ∧
      profileACreated.db.entries EntryCodec.plain (fun _ => ⟨7⟩) (replaceA.entry fun _ => 1) =
        none :=
  ⟨rfl, rfl⟩

/-- A `Replace` with a tag list of an absent entry never returns: `UPDATE_ITEM` writes no row,
and `GET_ITEM_ID` then finds none, where the code panics. -/
theorem replace_absent_with_tags_never_returns {c : UpdateCall} {w : World}
    (hw : ProfilesAgree kw ids keys w) (hop : c.operation = .replace) (ht : c.tags ≠ none)
    (habs : w.db.entries codec keys (c.entry ids) = none) :
    ∀ u w', c.run kw codec et w ≠ .ok u w' := by
  intro u w' h
  obtain ⟨-, happ⟩ := update_eq_ok hw h
  rw [hop] at happ
  rcases Db.applyUpdate_cases happ with ⟨⟨⟩, -⟩ |
    ⟨expiry, db₁, itemId, -, ⟨⟨⟩, -⟩ | ⟨-, rfl⟩, hid, -⟩
  have hnone : w.db.itemRow codec keys ⟨ids c.session.profile, c.kind, c.category, c.name⟩ =
      none := Option.map_eq_none'.1 habs
  have hi := hid ht
  rw [Db.entryItemId_eq, Db.deleteTag, Db.itemRow_withTags, Db.itemRow_updateEntryRow, if_pos rfl,
    hnone] at hi
  cases hi

/-- `replaceA` with a tag list. -/
def replaceATagged : UpdateCall := { replaceA with tags := some [⟨[4], [5], true⟩] }

theorem replace_absent_tagged_a :
    ProfilesAgree KeyWrap.symbolic (fun _ => 1) (fun _ => ⟨7⟩) profileACreated ∧
      replaceATagged.run KeyWrap.symbolic EntryCodec.plain (fun _ _ => .ok "") profileACreated =
        .error .panic profileACreated ∧
      ∀ u w', replaceATagged.run KeyWrap.symbolic EntryCodec.plain (fun _ _ => .ok "")
        profileACreated ≠ .ok u w' :=
  have hw := profilesAgree_profileACreated
  ⟨hw, rfl, replace_absent_with_tags_never_returns hw rfl (by decide) rfl⟩

/-- A `Replace` that returns deletes the tag rows whose item id is the id of its session's
profile and keeps every other tag row, so the replaced entry's old ones stay unless its row's id
is that profile id, and it adds its tags under its entry's row. -/
theorem replace_deletes_tags_by_profile_id {c : UpdateCall} {u : Unit} {w w' : World}
    (hw : ProfilesAgree kw ids keys w) (hop : c.operation = .replace)
    (h : c.run kw codec et w = .ok u w') :
    ∃ itemId,
      (c.tags ≠ none → (w.db.itemRow codec keys (c.entry ids)).map ItemRow.id = some itemId) ∧
      w'.db.itemsTags = w.db.itemsTags.filter (fun t => t.itemId ≠ ids c.session.profile) ++
        ((c.tags.getD []).map (codec.encryptTag (keys (ids c.session.profile)))).map
          (tagRow itemId) := by
  obtain ⟨-, happ⟩ := update_eq_ok hw h
  rw [hop] at happ
  exact Db.itemsTags_replace happ

/-- Profile 1 with two entries, items 0 and 1, each with one tag. -/
def twoEntries : World :=
  { profileACreated with
    db := profileACreated.db.withEntries
      [⟨0, 1, 2, [1], [1], [10], none⟩, ⟨1, 1, 2, [2], [2], [20], none⟩]
      [⟨0, [4], [5], 1⟩, ⟨1, [6], [7], 0⟩] 2 (by decide) }

/-- A `Replace` of the entry of item 0, with no tag list. -/
def replaceFirst : UpdateCall := ⟨⟨"a"⟩, .item, .replace, [1], [1], some [11], none, none, 0⟩

/-- `twoEntries` once `replaceFirst` has run: the tag of item 1, the other entry's, is gone. -/
def firstReplaced : World :=
  { profileACreated with
    db := profileACreated.db.withEntries
      [⟨0, 1, 2, [1], [1], [11], none⟩, ⟨1, 1, 2, [2], [2], [20], none⟩]
      [⟨0, [4], [5], 1⟩] 2 (by decide) }

theorem replace_drops_other_entry_tags :
    ProfilesAgree KeyWrap.symbolic (fun _ => 1) (fun _ => ⟨7⟩) twoEntries ∧
      replaceFirst.run KeyWrap.symbolic EntryCodec.plain (fun _ _ => .ok "") twoEntries =
        .ok () firstReplaced ∧
      (∃ itemId, (replaceFirst.tags ≠ none →
          (twoEntries.db.itemRow EntryCodec.plain (fun _ => ⟨7⟩)
            (replaceFirst.entry fun _ => 1)).map ItemRow.id = some itemId) ∧
        firstReplaced.db.itemsTags = twoEntries.db.itemsTags.filter (fun t => t.itemId ≠ 1) ++
          ((replaceFirst.tags.getD []).map (EntryCodec.plain.encryptTag ⟨7⟩)).map
            (tagRow itemId)) ∧
      twoEntries.db.entryTags EntryCodec.plain (fun _ => ⟨7⟩) ⟨1, .item, [2], [2]⟩ =
        some [some ⟨[6], [7], false⟩] ∧
      firstReplaced.db.entryTags EntryCodec.plain (fun _ => ⟨7⟩) ⟨1, .item, [2], [2]⟩ = some [] :=
  have hw : ProfilesAgree KeyWrap.symbolic (fun _ => 1) (fun _ => ⟨7⟩) twoEntries :=
    profilesAgree_profileACreated.of_eq rfl rfl
  have h : replaceFirst.run KeyWrap.symbolic EntryCodec.plain (fun _ _ => .ok "") twoEntries =
      .ok () firstReplaced := rfl
  ⟨hw, h, replace_deletes_tags_by_profile_id hw rfl h, rfl, rfl⟩

end AskarOdbc
