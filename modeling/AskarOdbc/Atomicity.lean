import AskarOdbc.EntryStore

/-! What a call of `update` that stops leaves in the tables. The backend sends the statements of
an `Insert | Replace` one at a time on the session's connection, with no transaction around them
(the source leaves "Can we use a transaction here???" open), so a call that stops keeps every
statement it ran before. A call stopped before its item statement wrote leaves both tables as
they were; one stopped later has its entry already holding the new value, with the old tags (a
`Replace` stopped at its `DELETE_TAG`) or the tag rows its item statements left followed by a
part of the new ones (`update_stops_with_partial_writes`). The tables a call stops in are the
tables between its statements, which every other session's statements read: a `Replace` stopped
at its `DELETE_TAG` shows its new value with the old tags
(`replace_stopped_keeps_new_value_with_old_tags`). -/

namespace AskarOdbc

open Op

variable {codec : EntryCodec} {keys : Int → ProfileKey} {et : Int → Int → Except Error String}
  {kw : KeyWrap} {ids : String → Int}

/-- An `Insert | Replace` that stops, from a store whose cache agrees with its profile rows: it
left both tables as they were, or its entry already holds what the call asks, and the tag rows are
the old ones (a `Replace` stopped at its `DELETE_TAG`) or those its item statements left followed
by the rows of its first `k` tags, where `k` is zero or below the number of tags, and then under
the id `GET_ITEM_ID` finds for its entry. -/
theorem update_stops_with_partial_writes {c : UpdateCall} {w w' : World} {f : Fault}
    (hw : ProfilesAgree kw ids keys w) (hop : c.operation ≠ .remove)
    (h : c.run kw codec et w = .error f w') :
    w'.db = w.db ∨
      w'.db.entries codec keys =
          (w.db.entries codec keys).apply c.operation (c.entry ids) (c.held et) ∧
        (w'.db.itemsTags = w.db.itemsTags ∨
          ∃ db₁ ts itemId k, w.db.writeItem codec keys c.operation (c.entry ids) (c.value.getD [])
              (c.held et).expiry = .ok db₁ ∧ c.tags = some ts ∧
            (k = 0 ∨ k < ts.length ∧ db₁.entryItemId codec keys (c.entry ids) = some itemId) ∧
            w'.db.itemsTags = db₁.itemsTags ++
              (((ts.map (codec.encryptTag (keys (ids c.session.profile)))).map
                (tagRow itemId)).take k)) := by
  rcases update_eq_error hw h with hdb | ⟨-, expiry, hexp, ⟨hne, hdb⟩ |
    ⟨db₁, ts, itemId, k, hitem, hts, hk, hdb⟩⟩
  · exact .inl hdb
  · have hrep : c.operation = .replace := by
      cases hc : c.operation
      · exact absurd hc hne
      · rfl
      · exact absurd hc hop
    refine .inr ⟨?_, .inl (by rw [hdb]; rfl)⟩
    rw [hdb, UpdateCall.held, hexp, hrep]
    exact Db.entries_updateEntryRow _ _ _ _
  · have hitem' : w.db.writeItem codec keys c.operation (c.entry ids) (c.value.getD [])
        (c.held et).expiry = .ok db₁ := by
      rw [UpdateCall.held, hexp]; exact hitem
    refine .inr ⟨?_, .inr ⟨db₁, ts, itemId, k, hitem', hts, hk, ?_⟩⟩
    · rw [hdb]
      exact (Db.entries_itemStatements (Db.writeItem_cases hop hitem') :)
    · rw [hdb, List.map_take]

/-- The environment fails the fourth external call of `replaceFirst`: its `DELETE_TAG`. -/
def failDeleteTag : List (Option Error) := [none, none, none, some ioError]

/-- `twoEntries` once `replaceFirst` has stopped at its `DELETE_TAG`: entry 0 holds its new value,
and every tag row is still there. -/
def firstValueOnly : World :=
  { profileACreated with
    db := profileACreated.db.withEntries
      [⟨0, 1, 2, [1], [1], [11], none⟩, ⟨1, 1, 2, [2], [2], [20], none⟩]
      [⟨0, [4], [5], 1⟩, ⟨1, [6], [7], 0⟩] 2 (by decide) }

theorem replace_stopped_at_delete_tag :
    ProfilesAgree KeyWrap.symbolic (fun _ => 1) (fun _ => ⟨7⟩)
        { twoEntries with faults := failDeleteTag } ∧
      replaceFirst.operation ≠ .remove ∧
      replaceFirst.run KeyWrap.symbolic EntryCodec.plain (fun _ _ => .ok "")
          { twoEntries with faults := failDeleteTag } = .error (.error ioError) firstValueOnly ∧
      (firstValueOnly.db = twoEntries.db ∨
        firstValueOnly.db.entries EntryCodec.plain (fun _ => ⟨7⟩) =
            (twoEntries.db.entries EntryCodec.plain (fun _ => ⟨7⟩)).apply replaceFirst.operation
              (replaceFirst.entry fun _ => 1) (replaceFirst.held fun _ _ => .ok "") ∧
          (firstValueOnly.db.itemsTags = twoEntries.db.itemsTags ∨
            ∃ db₁ ts itemId k, twoEntries.db.writeItem EntryCodec.plain (fun _ => ⟨7⟩)
                replaceFirst.operation (replaceFirst.entry fun _ => 1) (replaceFirst.value.getD [])
                (replaceFirst.held fun _ _ => .ok "").expiry = .ok db₁ ∧
              replaceFirst.tags = some ts ∧ (k = 0 ∨ k < ts.length ∧
                db₁.entryItemId EntryCodec.plain (fun _ => ⟨7⟩) (replaceFirst.entry fun _ => 1) =
                  some itemId) ∧
              firstValueOnly.db.itemsTags = db₁.itemsTags ++
                (((ts.map (EntryCodec.plain.encryptTag ⟨7⟩)).map (tagRow itemId)).take k))) :=
  have hw : ProfilesAgree KeyWrap.symbolic (fun _ => 1) (fun _ => ⟨7⟩)
      { twoEntries with faults := failDeleteTag } := profilesAgree_profileACreated.of_eq rfl rfl
  have h : replaceFirst.run KeyWrap.symbolic EntryCodec.plain (fun _ _ => .ok "")
      { twoEntries with faults := failDeleteTag } = .error (.error ioError) firstValueOnly := rfl
  ⟨hw, by decide, h, (update_stops_with_partial_writes hw (by decide) h :)⟩

/-- A `Replace` stopped at its `DELETE_TAG` has changed the items: its entry holds its new value,
with its old tag, in the tables every other session reads. -/
theorem replace_stopped_keeps_new_value_with_old_tags :
    replaceFirst.run KeyWrap.symbolic EntryCodec.plain (fun _ _ => .ok "")
        { twoEntries with faults := failDeleteTag } = .error (.error ioError) firstValueOnly ∧
      twoEntries.db.entries EntryCodec.plain (fun _ => ⟨7⟩) (replaceFirst.entry fun _ => 1) =
        some ⟨some [10], none⟩ ∧
      firstValueOnly.db.entries EntryCodec.plain (fun _ => ⟨7⟩) (replaceFirst.entry fun _ => 1) =
        some ⟨some [11], none⟩ ∧
      firstValueOnly.db.entryTags EntryCodec.plain (fun _ => ⟨7⟩) (replaceFirst.entry fun _ => 1) =
        some [some ⟨[4], [5], true⟩] :=
  ⟨rfl, rfl, rfl, rfl⟩

end AskarOdbc
