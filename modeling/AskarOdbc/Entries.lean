import AskarOdbc.Resolution

/-! The entries of the store, as the items table holds them encrypted. An entry is named by its
profile id, kind, category and name (`EntryId`); its row is the one whose identity columns are
the kind's code and the category and name encrypted under the profile's key, and what the entry
holds is the row's value decrypted and its expiry (`Db.entries`). The abstract store is a map
from identities to what they hold, and `Entries.apply` is what each operation of `update` is
for. `INSERT_ITEM` adds the entry's row, `UPDATE_ITEM` sets the value and expiry of a row already
there, `DELETE_ITEM` removes it, and none of them touches another entry's row
(`Db.itemRow_insertEntryRow` and the two after it). `update` runs these statements on the entry
its session's profile resolves to (`update_eq_ok`, through `Db.applyUpdate`), so each call that
returns does to the entries what its operation says (`Db.entries_applyUpdate`). -/

namespace AskarOdbc

open Op

/-! ### The abstract store -/

/-- The identity of an entry: `(profile_id, kind, category, name)`, in plaintext. -/
structure EntryId where
  profileId : Int
  kind : EntryKind
  category : Bytes
  name : Bytes
  deriving DecidableEq, Repr

/-- What an entry holds: its value, decrypted (none when it does not decrypt under its profile's
key), and its expiry. -/
structure EntryValue where
  value : Option Bytes
  expiry : Option String
  deriving DecidableEq, Repr

/-- The abstract store: what each identity holds. -/
def Entries : Type := EntryId → Option EntryValue

namespace Entries

/-- An insert adds the entry. -/
def insert (m : Entries) (e : EntryId) (v : EntryValue) : Entries :=
  fun e' => if e' = e then some v else m e'

/-- A replace sets what an entry holds, and leaves an identity without one alone. -/
def replace (m : Entries) (e : EntryId) (v : EntryValue) : Entries :=
  fun e' => if e' = e then (m e).map fun _ => v else m e'

/-- A remove deletes the entry. -/
def remove (m : Entries) (e : EntryId) : Entries :=
  fun e' => if e' = e then none else m e'

/-- What an operation of `update` does to the entry it is on. -/
def apply (m : Entries) (op : EntryOperation) (e : EntryId) (v : EntryValue) : Entries :=
  match op with
  | .insert => m.insert e v
  | .replace => m.replace e v
  | .remove => m.remove e

end Entries

/-! ### What the rows denote -/

variable (codec : EntryCodec) (keys : Int → ProfileKey)

/-- The identity columns of an entry's row: the kind's code, and category and name encrypted
under its profile's key. -/
def EntryId.columns (e : EntryId) : Int × Int × Bytes × Bytes :=
  (e.profileId, e.kind.toI16, codec.encryptCategory (keys e.profileId) e.category,
    codec.encryptName (keys e.profileId) e.name)

/-- The row `INSERT_ITEM` adds for an entry, under the item id `id`. -/
def EntryId.newRow (e : EntryId) (id : Int) (v : Bytes) (expiry : Option String) : ItemRow :=
  ⟨id, e.profileId, e.kind.toI16, codec.encryptCategory (keys e.profileId) e.category,
    codec.encryptName (keys e.profileId) e.name,
    codec.encryptValue (keys e.profileId) e.category e.name v, expiry⟩

/-- The row of an entry. -/
def Db.itemRow (db : Db) (e : EntryId) : Option ItemRow :=
  db.items.find? fun r => r.identity = e.columns codec keys

/-- The entries the items table holds. -/
def Db.entries (db : Db) : Entries := fun e =>
  (db.itemRow codec keys e).map fun r =>
    ⟨codec.decryptValue (keys e.profileId) e.category e.name r.value, r.expiry⟩

/-- `INSERT_ITEM` of an entry's columns, encrypted under its profile's key. -/
abbrev Db.insertEntryRow (db : Db) (e : EntryId) (v : Bytes) (expiry : Option String) :
    Except Error Db :=
  db.insertItem e.profileId e.kind.toI16 (codec.encryptCategory (keys e.profileId) e.category)
    (codec.encryptName (keys e.profileId) e.name)
    (codec.encryptValue (keys e.profileId) e.category e.name v) expiry

/-- `UPDATE_ITEM` of an entry's columns, encrypted under its profile's key. -/
abbrev Db.updateEntryRow (db : Db) (e : EntryId) (v : Bytes) (expiry : Option String) : Db :=
  db.updateItem (codec.encryptValue (keys e.profileId) e.category e.name v) expiry e.profileId
    e.kind.toI16 (codec.encryptCategory (keys e.profileId) e.category)
    (codec.encryptName (keys e.profileId) e.name)

/-- `DELETE_ITEM` of an entry's columns, encrypted under its profile's key. -/
abbrev Db.deleteEntryRow (db : Db) (e : EntryId) : Db :=
  db.deleteItem e.profileId e.kind.toI16 (codec.encryptCategory (keys e.profileId) e.category)
    (codec.encryptName (keys e.profileId) e.name)

variable {codec keys}

/-- Distinct identities have distinct columns: the kind's code and the encryptions are
injective. -/
theorem EntryId.columns_injective : Function.Injective (EntryId.columns codec keys) := by
  rintro ⟨p, k, c, n⟩ ⟨p', k', c', n'⟩ h
  simp only [EntryId.columns, Prod.mk.injEq] at h
  obtain ⟨rfl, hk, hc, hn⟩ := h
  rw [EntryKind.toI16_injective hk, codec.encryptCategory_injective _ hc,
    codec.encryptName_injective _ hn]

@[simp] theorem EntryId.newRow_identity (e : EntryId) (id : Int) (v : Bytes)
    (expiry : Option String) : (e.newRow codec keys id v expiry).identity = e.columns codec keys :=
  rfl

theorem Db.itemRow_identity {db : Db} {e : EntryId} {r : ItemRow}
    (h : db.itemRow codec keys e = some r) : r ∈ db.items ∧ r.identity = e.columns codec keys := by
  unfold Db.itemRow at h
  exact ⟨List.mem_of_find?_eq_some h, by simpa using List.find?_some h⟩

/-! ### What each statement does to the rows -/

theorem Db.itemRow_of_items {db db' : Db} (h : db'.items = db.items) (e : EntryId) :
    db'.itemRow codec keys e = db.itemRow codec keys e := by
  rw [Db.itemRow, Db.itemRow, h]

theorem Db.entries_of_items {db db' : Db} (h : db'.items = db.items) :
    db'.entries codec keys = db.entries codec keys := by
  funext e; simp only [Db.entries, Db.itemRow_of_items h]

/-- The id the next `INSERT_ITEM` gives is not the id of any row. -/
theorem Db.id_lt_newItemId (db : Db) : ∀ r ∈ db.items, r.id < db.newItemId :=
  lt_nextId db.reusesIds db.items_id_lt

/-- `INSERT_ITEM` refuses an identity in use, and otherwise appends the entry's row under the
next item id. -/
theorem Db.insertEntryRow_eq_ok {db db' : Db} {e : EntryId} {v : Bytes} {expiry : Option String}
    (h : db.insertEntryRow codec keys e v expiry = .ok db') :
    e.columns codec keys ∉ db.items.map ItemRow.identity ∧
      db'.items = db.items ++ [e.newRow codec keys db.newItemId v expiry] ∧
      db'.nextItemId = max db.nextItemId (db.newItemId + 1) ∧ db'.itemsTags = db.itemsTags ∧
      db'.profiles = db.profiles ∧ db'.cascadeTags = db.cascadeTags ∧
      db'.reusesIds = db.reusesIds := by
  unfold Db.insertEntryRow Db.insertItem at h
  split at h
  · cases h
  · cases h; exact ⟨‹_›, rfl, rfl, rfl, rfl, rfl, rfl⟩

/-- After `INSERT_ITEM` the entry's row is the new one, and every other entry keeps its row. -/
theorem Db.itemRow_insertEntryRow {db db' : Db} {e : EntryId} {v : Bytes}
    {expiry : Option String} (h : db.insertEntryRow codec keys e v expiry = .ok db')
    (e' : EntryId) : db'.itemRow codec keys e' = if e' = e
      then some (e.newRow codec keys db.newItemId v expiry) else db.itemRow codec keys e' := by
  obtain ⟨hn, hitems, -⟩ := Db.insertEntryRow_eq_ok h
  rw [Db.itemRow, hitems, List.find?_append]
  split
  · subst e'
    have hnone : db.items.find? (fun r => r.identity = e.columns codec keys) = none :=
      List.find?_eq_none.2 fun r hr hre =>
        hn (List.mem_map.2 ⟨r, hr, of_decide_eq_true hre⟩)
    rw [hnone]; simp
  · have hne : e.columns codec keys ≠ e'.columns codec keys :=
      fun h => ‹¬_› (EntryId.columns_injective h).symm
    simp [hne, Db.itemRow]

theorem Db.setItem_of_eq {v : Bytes} {expiry : Option String} {key : Int × Int × Bytes × Bytes}
    {r : ItemRow} (h : r.identity = key) :
    Db.setItem v expiry key r = { r with value := v, expiry } :=
  if_pos h

theorem Db.setItem_of_ne {v : Bytes} {expiry : Option String} {key : Int × Int × Bytes × Bytes}
    {r : ItemRow} (h : r.identity ≠ key) : Db.setItem v expiry key r = r :=
  if_neg h

/-- After `UPDATE_ITEM` the entry's row, if there is one, holds the new value and expiry, and
every other entry keeps its row. -/
theorem Db.itemRow_updateEntryRow (db : Db) (e : EntryId) (v : Bytes) (expiry : Option String)
    (e' : EntryId) : (db.updateEntryRow codec keys e v expiry).itemRow codec keys e' = if e' = e
      then (db.itemRow codec keys e).map fun r =>
        { r with value := codec.encryptValue (keys e.profileId) e.category e.name v, expiry }
      else db.itemRow codec keys e' := by
  have hp : ∀ v' expiry' key, ((fun r : ItemRow => decide (r.identity = e'.columns codec keys)) ∘
      Db.setItem v' expiry' key) = fun r => decide (r.identity = e'.columns codec keys) :=
    fun _ _ _ => funext fun r => by simp
  simp only [Db.itemRow, Db.updateItem, List.find?_map, hp]
  by_cases he : e' = e
  · subst he
    rw [if_pos rfl]
    cases hf : db.items.find? (fun r => r.identity = e'.columns codec keys) with
    | none => rfl
    | some r => exact congrArg some (Db.setItem_of_eq (by simpa using List.find?_some hf))
  · rw [if_neg he]
    cases hf : db.items.find? (fun r => r.identity = e'.columns codec keys) with
    | none => rfl
    | some r =>
      have hr : r.identity = e'.columns codec keys := by simpa using List.find?_some hf
      exact congrArg some
        (Db.setItem_of_ne fun h => he (EntryId.columns_injective (hr.symm.trans h)))

/-- After `DELETE_ITEM` the entry has no row, and every other entry keeps its row. -/
theorem Db.itemRow_deleteEntryRow (db : Db) (e e' : EntryId) :
    (db.deleteEntryRow codec keys e).itemRow codec keys e' =
      if e' = e then none else db.itemRow codec keys e' := by
  simp only [Db.itemRow, Db.deleteItem, List.find?_filter]
  split
  · subst e'; simp [EntryId.columns]
  · congr 1; funext r
    by_cases h : r.identity = e'.columns codec keys
    · have hne : r.identity ≠ e.columns codec keys := fun h' =>
        ‹¬_› (EntryId.columns_injective (h.symm.trans h'))
      simp only [EntryId.columns] at h hne
      rw [h] at hne ⊢
      simp [hne]
    · simp [h]

/-- `INSERT_ITEM` of an entry's encrypted columns adds the entry. -/
theorem Db.entries_insertEntryRow {db db' : Db} {e : EntryId} {v : Bytes}
    {expiry : Option String} (h : db.insertEntryRow codec keys e v expiry = .ok db') :
    db'.entries codec keys = (db.entries codec keys).insert e ⟨some v, expiry⟩ := by
  funext e'
  simp only [Db.entries, Db.itemRow_insertEntryRow h, Entries.insert]
  split
  · subst e'; simp [EntryId.newRow, codec.decryptValue_encryptValue]
  · rfl

/-- `UPDATE_ITEM` of an entry's encrypted columns sets what the entry holds, if it is there. -/
theorem Db.entries_updateEntryRow (db : Db) (e : EntryId) (v : Bytes) (expiry : Option String) :
    (db.updateEntryRow codec keys e v expiry).entries codec keys =
      (db.entries codec keys).replace e ⟨some v, expiry⟩ := by
  funext e'
  simp only [Db.entries, Db.itemRow_updateEntryRow, Entries.replace]
  split
  · subst e'
    cases db.itemRow codec keys e <;> simp [codec.decryptValue_encryptValue]
  · rfl

/-- `DELETE_ITEM` of an entry's encrypted columns removes the entry. -/
theorem Db.entries_deleteEntryRow (db : Db) (e : EntryId) :
    (db.deleteEntryRow codec keys e).entries codec keys = (db.entries codec keys).remove e := by
  funext e'
  simp only [Db.entries, Db.itemRow_deleteEntryRow, Entries.remove]
  split <;> rfl

/-- The row `INSERT_TAG` adds for an encrypted tag under an item id. -/
def tagRow (itemId : Int) (t : EncEntryTag) : TagRow :=
  ⟨itemId, t.name, t.value, if t.plaintext then 1 else 0⟩

/-! ### What `update` writes -/

section Writes

variable (codec keys)
variable (expiryTimestamp : Int → Except Error String)

/-- The expiry `update` stores: the formatted timestamp of `expiry_ms`, and NULL when there is
none or it formats to the empty string. -/
def storedExpiry : Option Int → Except Error (Option String)
  | none => .ok none
  | some ms => (expiryTimestamp ms).map fun s => if s.isEmpty then none else some s

/-- The item statements of the `Insert | Replace` branch: the insert of the entry, or the update
of the entry and the `DELETE_TAG` after it. -/
def Db.writeItem (op : EntryOperation) (e : EntryId) (v : Bytes) (expiry : Option String)
    (db : Db) : Except Error Db :=
  if op = .insert then db.insertEntryRow codec keys e v expiry
  else .ok ((db.updateEntryRow codec keys e v expiry).deleteTag e.profileId)

/-- The tag rows of the `for tag in tags` loop, one `INSERT_TAG` each, up to the first one the
foreign key refuses. -/
def Db.insertTagRows (db : Db) (itemId : Int) : List EncEntryTag → Except Error Db
  | [] => .ok db
  | t :: ts => (db.insertTag itemId t.name t.value (if t.plaintext then 1 else 0)).bind
    fun db₁ => db₁.insertTagRows itemId ts

/-- The id `GET_ITEM_ID` finds for an entry's encrypted columns. -/
abbrev Db.entryItemId (db : Db) (e : EntryId) : Option Int :=
  (db.getItemId e.profileId e.kind.toI16 (codec.encryptCategory (keys e.profileId) e.category)
    (codec.encryptName (keys e.profileId) e.name)).head?

/-- The tag statements after the item's: with a tag list, `GET_ITEM_ID` and one `INSERT_TAG` per
tag under the id it finds; none when it finds no row, where the code panics, or when the foreign
key refuses a tag row. -/
def Db.insertEntryTags (db : Db) (e : EntryId) : Option (List EntryTag) → Option Db
  | none => some db
  | some ts => (db.entryItemId codec keys e).bind fun itemId =>
    (db.insertTagRows itemId (ts.map (codec.encryptTag (keys e.profileId)))).toOption

/-- The tables once `update` has run every statement of an operation on an entry, with no
external call failing; none when the database refuses a statement, the expiry does not format,
or `GET_ITEM_ID` finds no row. -/
def Db.applyUpdate (op : EntryOperation) (e : EntryId) (v : Bytes)
    (tags : Option (List EntryTag)) (expiryMs : Option Int) (db : Db) : Option Db :=
  match op with
  | .remove => some (db.deleteEntryRow codec keys e)
  | .insert | .replace => do
    let expiry ← (storedExpiry expiryTimestamp expiryMs).toOption
    let db₁ ← (db.writeItem codec keys op e v expiry).toOption
    db₁.insertEntryTags codec keys e tags

/-- The tables an `Insert | Replace` can stop in once it has written: those its `UPDATE_ITEM`
left, stopped at the `DELETE_TAG` of a replace, or those its item statements left with the rows
of its first `k` tags, where `k` is below the number of tags or no tag row was written. -/
def Db.PartlyWritten (op : EntryOperation) (e : EntryId) (v : Bytes)
    (tags : Option (List EntryTag)) (expiryMs : Option Int) (db db' : Db) : Prop :=
  ∃ expiry, storedExpiry expiryTimestamp expiryMs = .ok expiry ∧
    (op ≠ .insert ∧ db' = db.updateEntryRow codec keys e v expiry ∨
      ∃ db₁ ts itemId k, db.writeItem codec keys op e v expiry = .ok db₁ ∧ tags = some ts ∧
        (k = 0 ∨ k < ts.length ∧ db₁.entryItemId codec keys e = some itemId) ∧
        db' = { db₁ with itemsTags := db₁.itemsTags ++
          ((ts.map (codec.encryptTag (keys e.profileId))).take k).map (tagRow itemId) })

end Writes

variable {et : Int → Except Error String}

/-! ### What a call of `update` does -/

theorem head?_filter_eq_find? {α : Type} (p : α → Bool) (l : List α) :
    (l.filter p).head? = l.find? p := by
  induction l with
  | nil => rfl
  | cons a l ih => by_cases h : p a <;> simp [List.filter_cons, List.find?_cons, h, ih]

/-- `GET_ITEM_ID` finds the id of the entry's row. -/
theorem Db.entryItemId_eq (db : Db) (e : EntryId) :
    db.entryItemId codec keys e = (db.itemRow codec keys e).map ItemRow.id := by
  simp only [Db.entryItemId, Db.getItemId, List.head?_map, head?_filter_eq_find?, Db.itemRow,
    EntryId.columns]

theorem Db.entryItemId_mem {db : Db} {e : EntryId} {itemId : Int}
    (h : db.entryItemId codec keys e = some itemId) : itemId ∈ db.items.map ItemRow.id := by
  rw [Db.entryItemId_eq] at h
  obtain ⟨r, hr, rfl⟩ := Option.map_eq_some'.1 h
  exact List.mem_map_of_mem _ (Db.itemRow_identity hr).1

theorem Db.insertTag_eq_ok {db db' : Db} {itemId : Int} {name value : Bytes} {plaintext : Int}
    (h : db.insertTag itemId name value plaintext = .ok db') :
    db' = { db with itemsTags := db.itemsTags ++ [⟨itemId, name, value, plaintext⟩] } := by
  unfold Db.insertTag at h
  split at h <;> cases h
  rfl

/-- The foreign key admits a tag row under the id of an item row. -/
theorem Db.insertTag_of_mem {db : Db} {itemId : Int} (h : itemId ∈ db.items.map ItemRow.id)
    (name value : Bytes) (plaintext : Int) : db.insertTag itemId name value plaintext =
      .ok { db with itemsTags := db.itemsTags ++ [⟨itemId, name, value, plaintext⟩] } :=
  if_neg fun h' => h'.2 h

/-- The tag loop under the id of an item row appends one row per tag, and changes nothing
else. -/
theorem Db.insertTagRows_eq {db : Db} {itemId : Int} (h : itemId ∈ db.items.map ItemRow.id)
    (ts : List EncEntryTag) : db.insertTagRows itemId ts =
      .ok { db with itemsTags := db.itemsTags ++ ts.map (tagRow itemId) } := by
  induction ts generalizing db with
  | nil => simp [Db.insertTagRows]
  | cons t ts ih =>
    rw [Db.insertTagRows, Db.insertTag_of_mem h]
    exact (ih (by exact h)).trans (by simp [tagRow])

theorem except_toOption_eq_some {ε α : Type} {r : Except ε α} {a : α} :
    r.toOption = some a ↔ r = .ok a := by
  cases r <;> simp [Except.toOption]

/-- The item statements of an `Insert | Replace`: the `INSERT_ITEM`, or the `UPDATE_ITEM` and the
`DELETE_TAG`. -/
theorem Db.writeItem_cases {op : EntryOperation} {e : EntryId} {v : Bytes}
    {expiry : Option String} {db db₁ : Db} (hop : op ≠ .remove)
    (h : db.writeItem codec keys op e v expiry = .ok db₁) :
    op = .insert ∧ db.insertEntryRow codec keys e v expiry = .ok db₁ ∨
      op = .replace ∧ db₁ = (db.updateEntryRow codec keys e v expiry).deleteTag e.profileId := by
  cases op with
  | insert => exact .inl ⟨rfl, h⟩
  | replace => exact .inr ⟨rfl, (Except.ok.inj h).symm⟩
  | remove => exact absurd rfl hop

/-- The item statements do to the entries what `Entries.apply` says. -/
theorem Db.entries_itemStatements {op : EntryOperation} {e : EntryId} {v : Bytes}
    {expiry : Option String} {db db₁ : Db}
    (hop : op = .insert ∧ db.insertEntryRow codec keys e v expiry = .ok db₁ ∨
      op = .replace ∧ db₁ = (db.updateEntryRow codec keys e v expiry).deleteTag e.profileId) :
    db₁.entries codec keys = (db.entries codec keys).apply op e ⟨some v, expiry⟩ := by
  rcases hop with ⟨rfl, hitem⟩ | ⟨rfl, rfl⟩
  · exact Db.entries_insertEntryRow hitem
  · exact Db.entries_updateEntryRow db e v expiry

/-- Everything a run of `update`'s statements can leave: the `DELETE_ITEM` of the entry, or its
item statements and then one tag row per tag under the id `GET_ITEM_ID` finds. -/
theorem Db.applyUpdate_cases {op : EntryOperation} {e : EntryId} {v : Bytes}
    {tags : Option (List EntryTag)} {ms : Option Int} {db db' : Db}
    (h : db.applyUpdate codec keys et op e v tags ms = some db') :
    (op = .remove ∧ db' = db.deleteEntryRow codec keys e) ∨
    ∃ expiry db₁ itemId, storedExpiry et ms = .ok expiry ∧
      (op = .insert ∧ db.insertEntryRow codec keys e v expiry = .ok db₁ ∨
        op = .replace ∧ db₁ = (db.updateEntryRow codec keys e v expiry).deleteTag e.profileId) ∧
      (tags ≠ none → db₁.entryItemId codec keys e = some itemId) ∧
      db' = { db₁ with itemsTags := db₁.itemsTags ++
        ((tags.getD []).map (codec.encryptTag (keys e.profileId))).map (tagRow itemId) } := by
  cases op with
  | remove => cases h; exact .inl ⟨rfl, rfl⟩
  | insert | replace =>
    obtain ⟨expiry, h₁, h⟩ := Option.bind_eq_some.1 h
    obtain ⟨db₁, h₂, h⟩ := Option.bind_eq_some.1 h
    have hitem := except_toOption_eq_some.1 h₂
    refine .inr ⟨expiry, db₁, ?_⟩
    cases tags with
    | none =>
      cases h
      refine ⟨0, except_toOption_eq_some.1 h₁, ?_, by simp, by simp⟩
      exact Db.writeItem_cases (by decide) hitem
    | some ts =>
      obtain ⟨itemId, hid, h⟩ := Option.bind_eq_some.1 h
      rw [except_toOption_eq_some, Db.insertTagRows_eq (Db.entryItemId_mem hid)] at h
      refine ⟨itemId, except_toOption_eq_some.1 h₁, ?_, fun _ => hid, (Except.ok.inj h).symm⟩
      exact Db.writeItem_cases (by decide) hitem

/-- Each operation `update` runs through does to the entries what `Entries.apply` says, with the
expiry the call stores. -/
theorem Db.entries_applyUpdate {op : EntryOperation} {e : EntryId} {v : Bytes}
    {tags : Option (List EntryTag)} {ms : Option Int} {db db' : Db}
    (h : db.applyUpdate codec keys et op e v tags ms = some db') :
    db'.entries codec keys =
      (db.entries codec keys).apply op e ⟨some v, (storedExpiry et ms).toOption.join⟩ := by
  rcases Db.applyUpdate_cases h with ⟨rfl, rfl⟩ | ⟨expiry, db₁, itemId, hexp, hop, -, rfl⟩
  · exact Db.entries_deleteEntryRow db e
  rw [hexp]
  exact (Db.entries_itemStatements hop :)

/-- `update` writes only the items and their tags. -/
theorem Db.applyUpdate_profiles {op : EntryOperation} {e : EntryId} {v : Bytes}
    {tags : Option (List EntryTag)} {ms : Option Int} {db db' : Db}
    (h : db.applyUpdate codec keys et op e v tags ms = some db') :
    db'.profiles = db.profiles ∧ db'.cascadeTags = db.cascadeTags := by
  rcases Db.applyUpdate_cases h with ⟨rfl, rfl⟩ | ⟨expiry, db₁, itemId, -, hop, -, rfl⟩
  · exact ⟨rfl, rfl⟩
  rcases hop with ⟨rfl, hitem⟩ | ⟨rfl, rfl⟩
  · obtain ⟨-, -, -, -, hp, hc, -⟩ := Db.insertEntryRow_eq_ok hitem
    exact ⟨hp, hc⟩
  · exact ⟨rfl, rfl⟩

theorem insertTags_eq_ok {itemId : Int} {ts : List EncEntryTag} {w w' : World} {u : Unit}
    (h : insertTags itemId ts w = .ok u w') :
    w.db.insertTagRows itemId ts = .ok w'.db ∧ w'.keyCache = w.keyCache := by
  induction ts generalizing w with
  | nil => cases h; exact ⟨rfl, rfl⟩
  | cons t ts ih =>
    obtain ⟨_, w₁, h₁, h⟩ := bind_eq_ok.1 h
    obtain ⟨db, hdb, rfl⟩ := execute_eq_ok h₁
    obtain ⟨hrows, hc⟩ := ih h
    exact ⟨by rw [Db.insertTagRows, hdb]; exact hrows, hc⟩

/-- The expiry string the code works out, and the column it stores. -/
theorem expiry_eq_ok {ms : Option Int} {w w' : World} {s : String}
    (h : (match ms with
      | none => pure ""
      | some ms => check (et ms) : Op String) w = .ok s w') :
    storedExpiry et ms = .ok (if s.isEmpty then none else some s) ∧ w' = w := by
  cases ms with
  | none => cases h; exact ⟨rfl, rfl⟩
  | some ms =>
    dsimp only at h
    cases het : et ms <;> rw [het] at h <;> cases h
    exact ⟨by rw [storedExpiry, het]; rfl, rfl⟩

/-- A call that stopped having written nothing. -/
theorem Op.Unchanged.stopped {w w' : World} {P : Prop} (hu : Unchanged w w') :
    w'.keyCache = w.keyCache ∧ (w'.db = w.db ∨ P) :=
  ⟨hu.keyCache, .inl hu.db⟩

/-- The item statements that return leave what `Db.writeItem` says. -/
theorem storeItem_eq_ok (e : EntryId) {op : EntryOperation} {v : Bytes} {s : String}
    {w w' : World} {u : Unit}
    (h : storeItem op e.profileId e.kind (codec.encryptCategory (keys e.profileId) e.category)
      (codec.encryptName (keys e.profileId) e.name)
      (codec.encryptValue (keys e.profileId) e.category e.name v) s w = .ok u w') :
    w.db.writeItem codec keys op e v (if s.isEmpty then none else some s) = .ok w'.db ∧
      w'.keyCache = w.keyCache := by
  unfold storeItem at h
  unfold Db.writeItem
  split at h <;> rename_i hop <;> simp only [hop, if_true, if_false]
  · split at h <;> rename_i hs <;> simp only [hs, if_true, if_false] <;>
      obtain ⟨db, hdb, rfl⟩ := execute_eq_ok h <;> exact ⟨hdb, rfl⟩
  · obtain ⟨_, w₁, h₁, h⟩ := bind_eq_ok.1 h
    obtain ⟨db, hdb, rfl⟩ := execute_eq_ok h
    cases hdb
    split at h₁ <;> rename_i hs <;> simp only [hs] <;>
      obtain ⟨db, hdb, rfl⟩ := execute_eq_ok h₁ <;> cases hdb <;> exact ⟨rfl, rfl⟩

/-- The item statements that stop leave the tables as they were, or, stopped at the
`DELETE_TAG`, as the `UPDATE_ITEM` left them. -/
theorem storeItem_eq_error (e : EntryId) {op : EntryOperation} {v : Bytes} {s : String}
    {w w' : World} {f : Fault}
    (h : storeItem op e.profileId e.kind (codec.encryptCategory (keys e.profileId) e.category)
      (codec.encryptName (keys e.profileId) e.name)
      (codec.encryptValue (keys e.profileId) e.category e.name v) s w = .error f w') :
    w'.keyCache = w.keyCache ∧ (w'.db = w.db ∨ op ≠ .insert ∧
      w'.db = w.db.updateEntryRow codec keys e v (if s.isEmpty then none else some s)) := by
  unfold storeItem at h
  split at h
  · split at h <;> exact (execute_eq_error h).stopped
  rcases bind_eq_error.1 h with h₁ | ⟨_, w₁, h₁, h⟩
  · split at h₁ <;> exact (execute_eq_error h₁).stopped
  have hu := execute_eq_error h
  have hupd : w₁.db = w.db.updateEntryRow codec keys e v (if s.isEmpty then none else some s) ∧
      w₁.keyCache = w.keyCache := by
    split at h₁ <;> rename_i hs <;> simp only [hs, if_true, if_false] <;>
      obtain ⟨db, hdb, rfl⟩ := execute_eq_ok h₁ <;> cases hdb <;> exact ⟨rfl, rfl⟩
  exact ⟨hu.keyCache.trans hupd.2, .inr ⟨‹_›, hu.db.trans hupd.1⟩⟩

/-- A successful `Insert | Replace` ran its item statements and then its tag statements. -/
theorem writeEntry_eq_ok (e : EntryId) {op : EntryOperation} {v : Bytes}
    {tags : Option (List EntryTag)} {ms : Option Int} {w w' : World} {u : Unit}
    (h : writeEntry codec et op e.profileId (keys e.profileId) e.kind e.category e.name v tags ms
      w = .ok u w') :
    w'.keyCache = w.keyCache ∧ ∃ expiry db₁, storedExpiry et ms = .ok expiry ∧
      w.db.writeItem codec keys op e v expiry = .ok db₁ ∧
      db₁.insertEntryTags codec keys e tags = some w'.db := by
  obtain ⟨_, w₁, h₁, h⟩ := bind_eq_ok.1 h
  obtain ⟨_, w₂, h₂, h⟩ := bind_eq_ok.1 h
  obtain ⟨s, w₃, h₃, h⟩ := bind_eq_ok.1 h
  obtain ⟨_, w₄, h₄, hs⟩ := bind_eq_ok.1 h
  clear h
  have hu := (readsOnly_attempt.of_ok h₁).trans (readsOnly_attemptOrPanic.of_ok h₂)
  obtain ⟨hexp, rfl⟩ := expiry_eq_ok h₃
  have hi := storeItem_eq_ok e h₄
  have ht : w₄.db.insertEntryTags codec keys e tags = some w'.db ∧ w'.keyCache = w₄.keyCache := by
    cases tags with
    | none => cases hs; exact ⟨rfl, rfl⟩
    | some ts =>
      obtain ⟨itemId, w₅, h₅, h⟩ := bind_eq_ok.1 hs
      obtain ⟨_, w₆, h₆, h⟩ := bind_eq_ok.1 h
      obtain ⟨hid, hu₅⟩ := selectFirstOrPanic_eq_ok h₅
      have hu₆ := readsOnly_attemptOrPanic.of_ok h₆
      obtain ⟨hdb, hc⟩ := insertTags_eq_ok h
      refine ⟨?_, hc.trans (hu₆.keyCache.trans hu₅.keyCache)⟩
      rw [hu₆.db, hu₅.db] at hdb
      rw [Db.insertEntryTags, Db.entryItemId, hid]
      exact except_toOption_eq_some.2 hdb
  exact ⟨ht.2.trans (hi.2.trans hu.keyCache), _, _, hexp, hu.db ▸ hi.1, ht.1⟩

theorem readsOnly_expiry (ms : Option Int) :
    ReadsOnly (match ms with
      | none => pure ""
      | some ms => check (et ms) : Op String) := by
  cases ms with
  | none => exact readsOnly_pure _
  | some ms => exact readsOnly_check _

/-- The tag loop stops at some tag, with the rows of the tags before it written. -/
theorem insertTags_eq_error {itemId : Int} {ts : List EncEntryTag} {w w' : World} {f : Fault}
    (h : insertTags itemId ts w = .error f w') :
    ∃ k < ts.length, w.db.insertTagRows itemId (ts.take k) = .ok w'.db ∧
      w'.keyCache = w.keyCache := by
  induction ts generalizing w with
  | nil => cases h
  | cons t ts ih =>
    rcases bind_eq_error.1 h with h₁ | ⟨_, w₁, h₁, h⟩
    · have hu := execute_eq_error h₁
      exact ⟨0, by simp, by rw [hu.db]; rfl, hu.keyCache⟩
    · obtain ⟨db, hdb, rfl⟩ := execute_eq_ok h₁
      obtain ⟨k, hk, hrows, hc⟩ := ih h
      exact ⟨k + 1, by simp [hk], by rw [List.take_succ_cons, Db.insertTagRows, hdb]; exact hrows,
        hc⟩

/-- An `Insert | Replace` that stops leaves the tables as they were, or, for a replace stopped at
its `DELETE_TAG`, as its `UPDATE_ITEM` left them, or as its item statements left them with the rows
of the first `k` tags added, where `k` is below the number of tags or no tag row was written. -/
theorem writeEntry_eq_error (e : EntryId) {op : EntryOperation} {v : Bytes}
    {tags : Option (List EntryTag)} {ms : Option Int} {w w' : World} {f : Fault}
    (h : writeEntry codec et op e.profileId (keys e.profileId) e.kind e.category e.name v tags ms
      w = .error f w') :
    w'.keyCache = w.keyCache ∧
      (w'.db = w.db ∨ w.db.PartlyWritten codec keys et op e v tags ms w'.db) := by
  unfold Db.PartlyWritten
  rcases bind_eq_error.1 h with h₁ | ⟨_, w₁, h₁, hA⟩
  · exact (readsOnly_attempt.of_error h₁).stopped
  have hu₁ := readsOnly_attempt.of_ok h₁
  rcases bind_eq_error.1 hA with h₂ | ⟨_, w₂, h₂, hB⟩
  · exact (hu₁.trans (readsOnly_attemptOrPanic.of_error h₂)).stopped
  have hu₂ := hu₁.trans (readsOnly_attemptOrPanic.of_ok h₂)
  rcases bind_eq_error.1 hB with h₃ | ⟨s, w₃, h₃, hC⟩
  · exact (hu₂.trans ((readsOnly_expiry ms).of_error h₃)).stopped
  obtain ⟨hexp, rfl⟩ := expiry_eq_ok h₃
  rcases bind_eq_error.1 hC with h₄ | ⟨_, w₄, h₄, hs⟩
  · obtain ⟨hc, hdb | ⟨hop, hdb⟩⟩ := storeItem_eq_error e h₄
    · exact ⟨hc.trans hu₂.keyCache, .inl (hdb.trans hu₂.db)⟩
    · exact ⟨hc.trans hu₂.keyCache, .inr ⟨_, hexp, .inl ⟨hop, by rw [hdb, hu₂.db]⟩⟩⟩
  obtain ⟨hi, hc⟩ := storeItem_eq_ok e h₄
  rw [hu₂.db] at hi
  have hc₄ := hc.trans hu₂.keyCache
  cases tags with
  | none => cases hs
  | some ts =>
    rcases bind_eq_error.1 hs with h₅ | ⟨itemId, w₅, h₅, hD⟩
    · have hu := (readsOnly_selectFirstOrPanic _).of_error h₅
      exact ⟨hu.keyCache.trans hc₄,
        .inr ⟨_, hexp, .inr ⟨w₄.db, ts, 0, 0, hi, rfl, .inl rfl, by simp [hu.db]⟩⟩⟩
    obtain ⟨hid, hu₅⟩ := selectFirstOrPanic_eq_ok h₅
    rcases bind_eq_error.1 hD with h₆ | ⟨_, w₆, h₆, hE⟩
    · have hu := hu₅.trans (readsOnly_attemptOrPanic.of_error h₆)
      exact ⟨hu.keyCache.trans hc₄,
        .inr ⟨_, hexp, .inr ⟨w₄.db, ts, 0, 0, hi, rfl, .inl rfl, by simp [hu.db]⟩⟩⟩
    have hu := hu₅.trans (readsOnly_attemptOrPanic.of_ok h₆)
    obtain ⟨k, hk, hdb, hc⟩ := insertTags_eq_error hE
    rw [hu.db, Db.insertTagRows_eq (Db.entryItemId_mem hid), List.map_take] at hdb
    exact ⟨hc.trans (hu.keyCache.trans hc₄), .inr ⟨_, hexp, .inr ⟨w₄.db, ts, itemId, k, hi, rfl,
      .inr ⟨by simpa using hk, hid⟩, by rw [← Except.ok.inj hdb, List.map_take]⟩⟩⟩

/-- A successful `Remove` ran its `DELETE_ITEM`. -/
theorem deleteEntry_eq_ok (e : EntryId) {w w' : World} {u : Unit}
    (h : deleteEntry codec e.profileId (keys e.profileId) e.kind e.category e.name w = .ok u w') :
    w'.keyCache = w.keyCache ∧ w'.db = w.db.deleteEntryRow codec keys e := by
  obtain ⟨_, w₁, h₁, h⟩ := bind_eq_ok.1 h
  obtain ⟨db, hdb, rfl⟩ := execute_eq_ok h
  cases hdb
  have hu := readsOnly_attempt.of_ok h₁
  exact ⟨hu.keyCache, by rw [hu.db]⟩

/-- A `Remove` that stops wrote nothing. -/
theorem deleteEntry_eq_error (e : EntryId) {w w' : World} {f : Fault}
    (h : deleteEntry codec e.profileId (keys e.profileId) e.kind e.category e.name w =
      .error f w') : Unchanged w w' := by
  rcases bind_eq_error.1 h with h₁ | ⟨_, w₁, h₁, h⟩
  · exact readsOnly_attempt.of_error h₁
  · exact (readsOnly_attempt.of_ok h₁).trans (execute_eq_error h)

/-! ### The profiles the sessions resolve -/

/-- `ids` and `keys` are the profile id each name resolves to and the key each profile id
holds, as every row and every cached entry says. -/
structure ProfilesAgree (kw : KeyWrap) (ids : String → Int) (keys : Int → ProfileKey)
    (w : World) : Prop where
  rows : ∀ r ∈ w.db.profiles, ids r.name = r.id ∧ Holds kw r (keys r.id)
  cache : ∀ n pid key, w.keyCache.getProfile n = some (pid, key) → ids n = pid ∧ keys pid = key

variable {kw : KeyWrap} {ids : String → Int}

theorem ProfilesAgree.of_eq {w w' : World} (hw : ProfilesAgree kw ids keys w)
    (hp : w'.db.profiles = w.db.profiles) (hc : w'.keyCache = w.keyCache) :
    ProfilesAgree kw ids keys w' :=
  ⟨hp ▸ hw.rows, hc ▸ hw.cache⟩

/-- `acquire_key` resolves a session's profile to the id and key `ids` and `keys` give it, and
what it caches agrees with them. -/
theorem acquireKey_resolves {s : OdbcSession} {w w' : World} {pid : Int} {key : ProfileKey}
    (hw : ProfilesAgree kw ids keys w) (h : acquireKey kw s w = .ok (pid, key) w') :
    pid = ids s.profile ∧ key = keys pid ∧ ProfilesAgree kw ids keys w' := by
  obtain ⟨hdb, hc⟩ := acquireKey_eq_ok h
  rcases hc with ⟨hm, hc⟩ | ⟨encKey, hrow, hk, hc⟩
  · obtain ⟨hi, hkey⟩ := hw.cache _ _ _ hm
    exact ⟨hi.symm, hkey.symm, hw.of_eq (by rw [hdb]) hc⟩
  obtain ⟨r, hr, hrn, hid, henc⟩ := Db.getProfile_head_mem hrow
  obtain ⟨hi, hkey⟩ := hw.rows r hr
  have hkey' : key = keys pid := hid ▸ holds_unique ⟨_, henc ▸ hk⟩ hkey
  refine ⟨hid ▸ hrn ▸ hi.symm, hkey', by rw [hdb]; exact hw.rows, ?_⟩
  intro n pid' key' hm
  rw [hc, KeyCache.getProfile_addProfile] at hm
  split at hm
  · cases hm; subst n; exact ⟨hrn ▸ hid ▸ hi, hkey'.symm⟩
  · exact hw.cache _ _ _ hm

/-- What follows `acquire_key` in a call that returns ran on the pair `ids` and `keys` give the
session's profile, from tables `acquire_key` left alone. -/
theorem acquireKey_bind_eq_ok {s : OdbcSession} {β : Type} {g : Int × ProfileKey → Op β}
    {w w' : World} {b : β} (hw : ProfilesAgree kw ids keys w)
    (h : (acquireKey kw s >>= g) w = .ok b w') :
    ∃ w₁, g (ids s.profile, keys (ids s.profile)) w₁ = .ok b w' ∧
      ProfilesAgree kw ids keys w₁ ∧ w₁.db = w.db := by
  obtain ⟨⟨pid, key⟩, w₁, h₁, h⟩ := bind_eq_ok.1 h
  obtain ⟨rfl, rfl, hw₁⟩ := acquireKey_resolves hw h₁
  exact ⟨w₁, h, hw₁, (acquireKey_eq_ok h₁).1⟩

/-- A call that stops did so in `acquire_key`, having written nothing, or in what follows it, run
on the pair `ids` and `keys` give the session's profile. -/
theorem acquireKey_bind_eq_error {s : OdbcSession} {β : Type} {g : Int × ProfileKey → Op β}
    {w w' : World} {f : Fault} (hw : ProfilesAgree kw ids keys w)
    (h : (acquireKey kw s >>= g) w = .error f w') :
    w'.db = w.db ∨
      ∃ w₁, g (ids s.profile, keys (ids s.profile)) w₁ = .error f w' ∧ w₁.db = w.db := by
  rcases bind_eq_error.1 h with h₁ | ⟨⟨pid, key⟩, w₁, h₁, h⟩
  · exact .inl (acquireKey_eq_error h₁).db
  obtain ⟨rfl, rfl, -⟩ := acquireKey_resolves hw h₁
  exact .inr ⟨w₁, h, (acquireKey_eq_ok h₁).1⟩

/-- A call of `update` that returns has run every statement of its operation on the entry its
session's profile resolves to, and what the sessions resolve stays as it was. -/
theorem update_eq_ok {s : OdbcSession} {kind : EntryKind} {op : EntryOperation}
    {category name : Bytes} {value : Option Bytes} {tags : Option (List EntryTag)}
    {ms : Option Int} {w w' : World} {u : Unit} (hw : ProfilesAgree kw ids keys w)
    (h : update codec et kw s kind op category name value tags ms w = .ok u w') :
    ProfilesAgree kw ids keys w' ∧ w.db.applyUpdate codec keys et op
      ⟨ids s.profile, kind, category, name⟩ (value.getD []) tags ms = some w'.db := by
  suffices ∃ w₁, ProfilesAgree kw ids keys w₁ ∧ w₁.db = w.db ∧ w'.keyCache = w₁.keyCache ∧
      w.db.applyUpdate codec keys et op ⟨ids s.profile, kind, category, name⟩ (value.getD []) tags
        ms = some w'.db by
    obtain ⟨w₁, hw₁, hdb₁, hc, happ⟩ := this
    exact ⟨hw₁.of_eq (by rw [(Db.applyUpdate_profiles happ).1, hdb₁]) hc, happ⟩
  cases op with
  | remove =>
    obtain ⟨w₁, h, hw₁, hdb₁⟩ := acquireKey_bind_eq_ok hw h
    obtain ⟨hc, hdb⟩ := deleteEntry_eq_ok ⟨_, kind, category, name⟩ h
    exact ⟨w₁, hw₁, hdb₁, hc, by rw [hdb, hdb₁]; rfl⟩
  | insert | replace =>
    obtain ⟨w₁, h, hw₁, hdb₁⟩ := acquireKey_bind_eq_ok hw h
    obtain ⟨hc, expiry, db₁, hexp, hitem, htags⟩ := writeEntry_eq_ok ⟨_, kind, category, name⟩ h
    refine ⟨w₁, hw₁, hdb₁, hc, ?_⟩
    rw [← hdb₁]
    simp [Db.applyUpdate, hexp, hitem, Except.toOption, htags]

/-- A call of `update` that stops has written no table, or is an `Insert | Replace` that stopped
once it had begun writing the entry its session's profile resolves to. -/
theorem update_eq_error {s : OdbcSession} {kind : EntryKind} {op : EntryOperation}
    {category name : Bytes} {value : Option Bytes} {tags : Option (List EntryTag)}
    {ms : Option Int} {w w' : World} {f : Fault} (hw : ProfilesAgree kw ids keys w)
    (h : update codec et kw s kind op category name value tags ms w = .error f w') :
    w'.db = w.db ∨ op ≠ .remove ∧ w.db.PartlyWritten codec keys et op
      ⟨ids s.profile, kind, category, name⟩ (value.getD []) tags ms w'.db := by
  cases op with
  | remove =>
    rcases acquireKey_bind_eq_error hw h with hdb | ⟨w₁, h, hdb₁⟩
    · exact .inl hdb
    · exact .inl ((deleteEntry_eq_error ⟨_, kind, category, name⟩ h).db.trans hdb₁)
  | insert | replace =>
    rcases acquireKey_bind_eq_error hw h with hdb | ⟨w₁, h, hdb₁⟩
    · exact .inl hdb
    obtain ⟨-, hdb | hpart⟩ := writeEntry_eq_error ⟨_, kind, category, name⟩ h
    · exact .inl (hdb.trans hdb₁)
    · exact .inr ⟨by decide, hdb₁ ▸ hpart⟩

end AskarOdbc
