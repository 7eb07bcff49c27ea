import AskarOdbc.Protect
import Mathlib.Data.List.Nodup

/-! The persisted tables of the store, as spec section 6 lays them out, and the SQL statements of
`backend/odbc/mod.rs` over them. `Db` carries the constraints of the schema as fields: profile
ids and item ids are distinct and below the table's counter, profile names are unique, and items
are unique on `(profile_id, kind, category, name)`. Every statement keeps them, so no reachable
table breaks them. The schema itself is provisioned outside this file, and neither the source nor
the spec fixes two of its choices, which are fields of `Db` that the statements read:
`cascadeTags`, whether `items_tags.item_id` is a foreign key that takes an item's tag rows with
it when the item is deleted (and then refuses a tag row whose item has no row), and `reusesIds`,
whether a table numbers a new row from a counter that never goes back or, as a rowid table does,
one past the largest id in use (`nextId`), which gives a deleted row's id out again. A statement
that would break a unique constraint fails. A `SELECT` returns its rows in the order the table
holds them. -/

namespace AskarOdbc

/-- Modelled from the spec: `EntryKind`, the kind of record an entry is (a key, or generic data).
The backend stores `kind as i16`; the source does not give the two codes, and any two distinct
codes serve. -/
inductive EntryKind
  | kms
  | item
  deriving DecidableEq, Repr

/-- `kind as i16`. -/
def EntryKind.toI16 : EntryKind → Int
  | .kms => 1
  | .item => 2

theorem EntryKind.toI16_injective : Function.Injective EntryKind.toI16 := by
  intro a b h; cases a <;> cases b <;> first | rfl | cases h

/-- A row of `profiles(id, name, profile_key)`; `id` is the profile's `ProfileId`. -/
structure ProfileRow where
  id : Int
  name : String
  profileKey : Bytes
  deriving DecidableEq, Repr

/-- A row of `items(id, profile_id, kind, category, name, value, expiry)`. -/
structure ItemRow where
  id : Int
  profileId : Int
  kind : Int
  category : Bytes
  name : Bytes
  value : Bytes
  expiry : Option String
  deriving DecidableEq, Repr

/-- The columns the items table is unique on: `(profile_id, kind, category, name)`. -/
def ItemRow.identity (r : ItemRow) : Int × Int × Bytes × Bytes :=
  (r.profileId, r.kind, r.category, r.name)

/-- A row of `items_tags(item_id, name, value, plaintext)`. -/
structure TagRow where
  itemId : Int
  name : Bytes
  value : Bytes
  plaintext : Int
  deriving DecidableEq, Repr

/-- The tables: the `config` rows `default_profile` and `key` (the store key that the `key` row
names), `profiles`, `items` and `items_tags`, with the counters the database numbers rows from,
and the schema's two choices. -/
structure Db where
  defaultProfile : String
  storeKey : StoreKey
  profiles : List ProfileRow
  items : List ItemRow
  itemsTags : List TagRow
  nextProfileId : Int
  nextItemId : Int
  cascadeTags : Bool
  reusesIds : Bool
  profiles_id_lt : ∀ r ∈ profiles, r.id < nextProfileId
  profiles_id_nodup : (profiles.map ProfileRow.id).Nodup
  profiles_name_nodup : (profiles.map ProfileRow.name).Nodup
  items_id_lt : ∀ r ∈ items, r.id < nextItemId
  items_id_nodup : (items.map ItemRow.id).Nodup
  items_identity_nodup : (items.map ItemRow.identity).Nodup

/-! ### Keeping the constraints -/

section Constraints

variable {α β : Type} {l : List α} {f : α → β}

theorem lt_of_mem_append_fresh {g : α → Int} {n m : Int} {x : α} (h : ∀ r ∈ l, g r < n)
    (hx : g x < m) : ∀ r ∈ l ++ [x], g r < max n m := by
  intro r hr
  rcases List.mem_append.1 hr with hr | hr
  · exact Int.lt_of_lt_of_le (h r hr) (Int.le_max_left _ _)
  · rw [List.mem_singleton.1 hr]; exact Int.lt_of_lt_of_le hx (Int.le_max_right _ _)

theorem nodup_map_append_fresh (x : α) (h : (l.map f).Nodup) (hx : f x ∉ l.map f) :
    ((l ++ [x]).map f).Nodup := by
  simpa [List.nodup_append, hx] using h

theorem not_mem_map_of_lt {g : α → Int} {n : Int} (h : ∀ r ∈ l, g r < n) :
    n ∉ l.map g := by
  simp only [List.mem_map, not_exists, not_and]
  intro r hr he; have := h r hr; omega

theorem nodup_map_filter (p : α → Bool) (h : (l.map f).Nodup) : ((l.filter p).map f).Nodup :=
  h.sublist ((List.filter_sublist l).map f)

theorem map_map_of_preserves {g : α → α} (hg : ∀ r, f (g r) = f r) :
    (l.map g).map f = l.map f := by
  simp [List.map_map, Function.comp_def, hg]

theorem le_foldr_max {ids : List Int} : ∀ i ∈ ids, i ≤ ids.foldr max 0 := by
  induction ids with
  | nil => exact fun _ h => absurd h (List.not_mem_nil _)
  | cons j ids ih =>
    intro i hi
    rcases List.mem_cons.1 hi with rfl | hi
    · exact Int.le_max_left _ _
    · exact (ih i hi).trans (Int.le_max_right _ _)

end Constraints

/-- The id a table numbers its next row with: its counter, which never goes back, or, in a schema
that reuses ids, one past the largest id in use. -/
def nextId (reusesIds : Bool) (counter : Int) (ids : List Int) : Int :=
  if reusesIds then ids.foldr max 0 + 1 else counter

/-- Either way the next id is above every id in use. -/
theorem lt_nextId {α : Type} {l : List α} {g : α → Int} {n : Int} (reusesIds : Bool)
    (h : ∀ r ∈ l, g r < n) : ∀ r ∈ l, g r < nextId reusesIds n (l.map g) := by
  cases reusesIds
  · exact h
  · exact fun r hr => Int.lt_add_one_iff.2 (le_foldr_max _ (List.mem_map_of_mem g hr))

namespace Db

variable (db : Db)

/-! ### Statements on `config` and `profiles` -/

/-- `UPDATE_CONFIG_KEY`: the `key` row names the new store key. -/
def updateConfigKey (storeKey : StoreKey) : Db := { db with storeKey }

/-- `UPDATE_CONFIG_PROFILE`. -/
def updateConfigProfile (profile : String) : Db := { db with defaultProfile := profile }

/-- `GET_DEFAULT_PROFILE`. -/
def getDefaultProfile : String := db.defaultProfile

/-- The id `INSERT_PROFILE` gives its row. -/
def newProfileId : Int := nextId db.reusesIds db.nextProfileId (db.profiles.map ProfileRow.id)

/-- `INSERT_PROFILE`: a row with the next profile id; the unique constraint on `name` refuses a
name in use. -/
def insertProfile (name : String) (profileKey : Bytes) : Except Error Db :=
  if h : name ∈ db.profiles.map ProfileRow.name then .error ⟨.duplicate, "profiles.name"⟩
  else .ok { db with
    profiles := db.profiles ++ [⟨db.newProfileId, name, profileKey⟩]
    nextProfileId := max db.nextProfileId (db.newProfileId + 1)
    profiles_id_lt := lt_of_mem_append_fresh db.profiles_id_lt (Int.lt_succ _)
    profiles_id_nodup := nodup_map_append_fresh _ db.profiles_id_nodup
      (not_mem_map_of_lt (lt_nextId db.reusesIds db.profiles_id_lt))
    profiles_name_nodup :=
      nodup_map_append_fresh (⟨db.newProfileId, name, profileKey⟩ : ProfileRow)
        db.profiles_name_nodup h }

/-- `GET_PROFILE_ID`: the ids of the rows with this name and this stored key. -/
def getProfileId (name : String) (profileKey : Bytes) : List Int :=
  (db.profiles.filter fun r => r.name = name ∧ r.profileKey = profileKey).map ProfileRow.id

/-- `GET_PROFILE_NAMES`. -/
def getProfileNames : List String := db.profiles.map ProfileRow.name

/-- `GET_PROFILE_COUNT_FOR_NAME`. -/
def getProfileCountForName (name : String) : Int :=
  (db.profiles.filter fun r => r.name = name).length

/-- `GET_PROFILES`. -/
def getProfiles : List (Int × Bytes) := db.profiles.map fun r => (r.id, r.profileKey)

/-- `GET_PROFILE`. -/
def getProfile (name : String) : List (Int × Bytes) :=
  (db.profiles.filter fun r => r.name = name).map fun r => (r.id, r.profileKey)

/-- The row that `UPDATE_PROFILE` with this key and id leaves. -/
def rekeyRow (profileKey : Bytes) (id : Int) (r : ProfileRow) : ProfileRow :=
  if r.id = id then { r with profileKey } else r

@[simp] theorem rekeyRow_id (k : Bytes) (id : Int) (r : ProfileRow) :
    (rekeyRow k id r).id = r.id := by
  unfold rekeyRow; split <;> rfl

@[simp] theorem rekeyRow_name (k : Bytes) (id : Int) (r : ProfileRow) :
    (rekeyRow k id r).name = r.name := by
  unfold rekeyRow; split <;> rfl

/-- `UPDATE_PROFILE`. -/
def updateProfile (profileKey : Bytes) (id : Int) : Db := { db with
  profiles := db.profiles.map (rekeyRow profileKey id)
  profiles_id_lt := by simpa using db.profiles_id_lt
  profiles_id_nodup := by
    rw [map_map_of_preserves (rekeyRow_id _ _)]; exact db.profiles_id_nodup
  profiles_name_nodup := by
    rw [map_map_of_preserves (rekeyRow_name _ _)]; exact db.profiles_name_nodup }

/-- `DELETE_PROFILE`. -/
def deleteProfile (name : String) : Db := { db with
  profiles := db.profiles.filter fun r => r.name ≠ name
  profiles_id_lt := fun r hr => db.profiles_id_lt r (List.mem_of_mem_filter hr)
  profiles_id_nodup := nodup_map_filter _ db.profiles_id_nodup
  profiles_name_nodup := nodup_map_filter _ db.profiles_name_nodup }

/-! ### Statements on `items` and `items_tags` -/

/-- `GET_ITEM_ID`. -/
def getItemId (profileId : Int) (kind : Int) (category name : Bytes) : List Int :=
  (db.items.filter fun r => r.identity = (profileId, kind, category, name)).map ItemRow.id

/-- The id `INSERT_ITEM` gives its row. -/
def newItemId : Int := nextId db.reusesIds db.nextItemId (db.items.map ItemRow.id)

/-- `INSERT_ITEM` (with `expiry` NULL) and `INSERT_ITEM_WITH_EXPIRY`: a row with the next item
id; the unique constraint on `(profile_id, kind, category, name)` refuses an identity in use. -/
def insertItem (profileId : Int) (kind : Int) (category name value : Bytes)
    (expiry : Option String) : Except Error Db :=
  if h : (profileId, kind, category, name) ∈ db.items.map ItemRow.identity then
    .error ⟨.duplicate, "items.identity"⟩
  else .ok { db with
    items := db.items ++ [⟨db.newItemId, profileId, kind, category, name, value, expiry⟩]
    nextItemId := max db.nextItemId (db.newItemId + 1)
    items_id_lt := lt_of_mem_append_fresh db.items_id_lt (Int.lt_succ _)
    items_id_nodup := nodup_map_append_fresh _ db.items_id_nodup
      (not_mem_map_of_lt (lt_nextId db.reusesIds db.items_id_lt))
    items_identity_nodup :=
      nodup_map_append_fresh
        (⟨db.newItemId, profileId, kind, category, name, value, expiry⟩ : ItemRow)
        db.items_identity_nodup h }

/-- The row that `UPDATE_ITEM` (with `expiry` NULL) or `UPDATE_ITEM_WITH_EXPIRY` leaves. -/
def setItem (value : Bytes) (expiry : Option String) (key : Int × Int × Bytes × Bytes)
    (r : ItemRow) : ItemRow :=
  if r.identity = key then { r with value, expiry } else r

@[simp] theorem setItem_id (v e key) (r : ItemRow) : (setItem v e key r).id = r.id := by
  unfold setItem; split <;> rfl

@[simp] theorem setItem_identity (v e key) (r : ItemRow) :
    (setItem v e key r).identity = r.identity := by
  unfold setItem; split <;> rfl

/-- `UPDATE_ITEM` (with `expiry` NULL) and `UPDATE_ITEM_WITH_EXPIRY`. -/
def updateItem (value : Bytes) (expiry : Option String) (profileId : Int) (kind : Int)
    (category name : Bytes) : Db := { db with
  items := db.items.map (setItem value expiry (profileId, kind, category, name))
  items_id_lt := by simpa using db.items_id_lt
  items_id_nodup := by rw [map_map_of_preserves (setItem_id _ _ _)]; exact db.items_id_nodup
  items_identity_nodup := by
    rw [map_map_of_preserves (setItem_identity _ _ _)]; exact db.items_identity_nodup }

/-- `DELETE_ITEM`; when the schema cascades, the tag rows of the deleted items go too. -/
def deleteItem (profileId : Int) (kind : Int) (category name : Bytes) : Db :=
  let key := (profileId, kind, category, name)
  { db with
    items := db.items.filter fun r => r.identity ≠ key
    itemsTags := if db.cascadeTags then
        db.itemsTags.filter fun t => t.itemId ∉ db.getItemId profileId kind category name
      else db.itemsTags
    items_id_lt := fun r hr => db.items_id_lt r (List.mem_of_mem_filter hr)
    items_id_nodup := nodup_map_filter _ db.items_id_nodup
    items_identity_nodup := nodup_map_filter _ db.items_identity_nodup }

/-- `INSERT_TAG`; where the schema cascades deletes, `item_id` is a foreign key to `items`,
which refuses a tag row whose item has no row. -/
def insertTag (itemId : Int) (name value : Bytes) (plaintext : Int) : Except Error Db :=
  if db.cascadeTags ∧ itemId ∉ db.items.map ItemRow.id then .error ⟨.backend, "items_tags.item_id"⟩
  else .ok { db with itemsTags := db.itemsTags ++ [⟨itemId, name, value, plaintext⟩] }

/-- `DELETE_TAG`. -/
def deleteTag (itemId : Int) : Db :=
  { db with itemsTags := db.itemsTags.filter fun t => t.itemId ≠ itemId }

/-- A store with the profile rows `rows`, ids below `nextProfileId`, and no entry. -/
def ofProfiles (defaultProfile : String) (storeKey : StoreKey) (cascadeTags reusesIds : Bool)
    (rows : List ProfileRow) (nextProfileId : Int)
    (h : (∀ r ∈ rows, r.id < nextProfileId) ∧ (rows.map ProfileRow.id).Nodup ∧
      (rows.map ProfileRow.name).Nodup) : Db where
  defaultProfile := defaultProfile
  storeKey := storeKey
  profiles := rows
  items := []
  itemsTags := []
  nextProfileId := nextProfileId
  nextItemId := 0
  cascadeTags := cascadeTags
  reusesIds := reusesIds
  profiles_id_lt := h.1
  profiles_id_nodup := h.2.1
  profiles_name_nodup := h.2.2
  items_id_lt := by simp
  items_id_nodup := List.nodup_nil
  items_identity_nodup := List.nodup_nil

/-- `db` with the item rows `items`, ids below `nextItemId`, and the tag rows `itemsTags`. -/
def withEntries (items : List ItemRow) (itemsTags : List TagRow) (nextItemId : Int)
    (h : (∀ r ∈ items, r.id < nextItemId) ∧ (items.map ItemRow.id).Nodup ∧
      (items.map ItemRow.identity).Nodup) : Db :=
  { db with
    items := items
    itemsTags := itemsTags
    nextItemId := nextItemId
    items_id_lt := h.1
    items_id_nodup := h.2.1
    items_identity_nodup := h.2.2 }

end Db

end AskarOdbc
