import Bango.Items.Proofs.Operations

set_option autoImplicit false

/-! # Every item and its row

While items are changed only once they have got their ids, each item is in one of three places: its
row has an id, and it knows the id; its row has an id, and the reply is in flight; or the message that
creates its row is in flight. The rows, the replies and the messages are those of these items. -/

namespace Bango.Items

open Bango.Lib

/-- The items by place: with an id, with a reply in flight (and the id in it), with a new row in
    flight. -/
structure Linked (s : System) (known : List Item) (answered : List (Item × Nat))
    (awaited : List Item) : Prop where
  items : s.items.Perm (known ++ answered.map Prod.fst ++ awaited)
  knows : ∀ item ∈ known, item.info.iid ≠ 0
  waits : ∀ item ∈ answered.map Prod.fst ++ awaited, item.info.iid = 0
  rows : (changes s.toDb s.rows).Perm
    (known.map (Item.row s.player.pid) ++ answered.map fun a => a.1.info.row s.player.pid a.2)
  replies : s.toGame = answered.map fun a => ⟨s.player.uid, a.1.localId, a.2⟩
  inserts : s.toDb.filter S2D.isInsert =
    awaited.map fun item => .insertItem item.info s.player.pid s.player.uid item.localId
  fits : ∀ item ∈ awaited, item.info.Fits
  sent : s.AllSent

theorem created_of_not_isInsert {message : S2D} (h : message.isInsert = false) :
    message.created = none := by
  cases message with
  | insertItem => cases h
  | updateItemNum | updateItemInfo | trashItem => rfl

/-- Only messages about new items add rows. -/
theorem filterMap_created (messages : List S2D) :
    messages.filterMap S2D.created = (messages.filter S2D.isInsert).filterMap S2D.created := by
  induction messages with
  | nil => rfl
  | cons message messages ih =>
      cases hinsert : message.isInsert with
      | true => rw [List.filter_cons_of_pos hinsert, List.filterMap_cons, List.filterMap_cons, ih]
      | false =>
          rw [List.filter_cons_of_neg (by simp [hinsert]),
            List.filterMap_cons_none (created_of_not_isInsert hinsert), ih]

variable {db : ItemDb} {s s' : System} {known awaited : List Item} {answered : List (Item × Nat)}
  {item item' : Item} {message : S2D}

theorem rows_pos {row : Row} (h : row ∈ changes s.toDb s.rows) : 0 < row.iditem :=
  pos_of_mem_changes (fun _ => ItemTable.pos_of_mem_rowsOf) h

theorem rows_lt {row : Row} (h : row ∈ changes s.toDb s.rows) : row.iditem < s.table.next :=
  lt_of_mem_changes (fun _ => ItemTable.lt_of_mem_rowsOf) h

theorem keyed_rows : Keyed Row.iditem (changes s.toDb s.rows) :=
  keyed_changes ItemTable.keyed_rowsOf

/-- No row has the id 0. -/
theorem rows_ne_zero : ∀ row ∈ changes s.toDb s.rows, row.iditem ≠ 0 :=
  fun _ hrow => Nat.ne_of_gt (rows_pos hrow)

namespace Linked

/-- The order of the items that know their ids says nothing. -/
theorem of_perm {known' : List Item} (h : Linked s known answered awaited)
    (hperm : known.Perm known') : Linked s known' answered awaited where
  items := h.items.trans ((hperm.append_right _).append_right _)
  knows item hitem := h.knows item (hperm.mem_iff.2 hitem)
  waits := h.waits
  rows := h.rows.trans ((hperm.map _).append_right _)
  replies := h.replies
  inserts := h.inserts
  fits := h.fits
  sent := h.sent

/-- An item with an id knows it. -/
theorem exists_known (h : Linked s known answered awaited) (hmem : item ∈ s.items)
    (hiid : item.info.iid ≠ 0) : ∃ rest, Linked s (item :: rest) answered awaited := by
  have hknown : item ∈ known := by
    have hitem := h.items.mem_iff.1 hmem
    rw [List.append_assoc] at hitem
    rcases List.mem_append.1 hitem with hknown | hunknown
    · exact hknown
    · exact absurd (h.waits item hunknown) hiid
  exact ⟨known.erase item, h.of_perm (List.perm_cons_erase hknown)⟩

/-- The rows will be the items. -/
theorem perm_settled (h : Linked s known answered awaited) :
    (s.items.map (·.info.content)).Perm s.settled := by
  -- the rows still to be created are those of the items that wait
  have hawaited : s.toDb.filterMap S2D.created = awaited.map (·.info.content) := by
    rw [filterMap_created, h.inserts, List.filterMap_map]
    rw [← List.filterMap_eq_map]
    exact List.filterMap_congr fun item hitem => if_pos (h.fits item hitem)
  have hitems := h.items.map (·.info.content)
  have hrows := h.rows.map Row.content
  rw [List.map_append, List.map_append, List.map_map] at hitems
  rw [List.map_append, List.map_map, List.map_map] at hrows
  unfold System.settled settled
  rw [hawaited]
  exact hitems.trans (hrows.symm.append_right _)

theorem settles (h : Linked s known answered awaited) : s.Settles db :=
  (settles_iff h.sent).2 h.perm_settled

/-! ## Operations -/

theorem keeps (h : Linked s known answered awaited) (hkeeps : Keeps s s') :
    Linked s' known answered awaited where
  items := hkeeps.items ▸ h.items
  knows := h.knows
  waits := h.waits
  rows := by
    rw [hkeeps.toDb, hkeeps.rows, hkeeps.pid]
    exact h.rows
  replies := by rw [hkeeps.toGame, hkeeps.uid, h.replies]
  inserts := by rw [hkeeps.toDb, hkeeps.pid, hkeeps.uid, h.inserts]
  fits := h.fits
  sent m hm := by
    rw [hkeeps.toDb] at hm
    rw [hkeeps.pid]
    exact (h.sent m hm).mono hkeeps.next

end Linked

theorem Sends.rows (h : Sends s s' message) : s'.rows = s.rows := by
  unfold System.rows
  rw [h.table, h.pid]

theorem Sends.changes (h : Sends s s' message) :
    changes s'.toDb s'.rows = message.change (Items.changes s.toDb s.rows) := by
  rw [h.rows, h.toDb, changes_concat]

theorem Sends.allSent (h : Sends s s' message) (hsent : s.AllSent)
    (hmessage : message.Sent s.player.pid s.table.next) : s'.AllSent := by
  unfold System.AllSent
  rw [h.toDb, h.pid, h.table]
  intro m hm
  rcases List.mem_append.1 hm with hold | hnew
  · exact hsent m hold
  · rw [List.mem_singleton.1 hnew]
    exact hmessage

theorem Sends.filter (h : Sends s s' message) (hmessage : message.isInsert = false) :
    s'.toDb.filter S2D.isInsert = s.toDb.filter S2D.isInsert := by
  rw [h.toDb, List.filter_append, List.filter_cons_of_neg (by simp [hmessage]), List.filter_nil,
    List.append_nil]

namespace Linked

/-- A change of the rows that only the items with ids take part in. -/
theorem sends {known' : List Item} (h : Linked s known answered awaited)
    (hsends : Sends s s' message) (hmessage : message.isInsert = false)
    (hsent : message.Sent s.player.pid s.table.next)
    (hitems : s'.items.Perm (known' ++ answered.map Prod.fst ++ awaited))
    (hknown : ∀ item ∈ known', item.info.iid ≠ 0)
    (hrows : (message.change (changes s.toDb s.rows)).Perm
      (known'.map (Item.row s.player.pid) ++ answered.map fun a => a.1.info.row s.player.pid a.2)) :
    Linked s' known' answered awaited where
  items := hitems
  knows := hknown
  waits := h.waits
  rows := by
    rw [hsends.changes, hsends.pid]
    exact hrows
  replies := by rw [hsends.toGame, hsends.uid, h.replies]
  inserts := by rw [hsends.filter hmessage, hsends.pid, hsends.uid, h.inserts]
  fits := h.fits
  sent := hsends.allSent h.sent hsent

/-- The row of an item that knows its id. -/
theorem row_mem {rest : List Item} (h : Linked s (item :: rest) answered awaited) :
    item.row s.player.pid ∈ changes s.toDb s.rows :=
  h.rows.mem_iff.2 List.mem_cons_self

theorem edits (h : Linked s known answered awaited) (hedits : Edits s s' item item')
    (hgood : item.info.iid ≠ 0 ∨ item' = item) :
    ∃ known', Linked s' known' answered awaited := by
  obtain ⟨message, hsends, hreports⟩ := hedits.sends
  by_cases hiid : item.info.iid = 0
  · -- no row has the id, and the item stays as it is
    obtain rfl : item' = item := hgood.resolve_left fun hne => hne hiid
    obtain hperm := List.perm_cons_erase hedits.mem
    refine ⟨known, h.sends hsends hreports.isInsert (hreports.sent _ _ ?_) ?_ h.knows ?_⟩
    · rw [hiid]
      exact s.table.next_pos
    · exact ((hedits.items _ hperm).trans hperm.symm).trans h.items
    · rw [hreports.unknown _ (hiid ▸ rows_ne_zero)]
      exact h.rows
  · -- the row of the item is found by its id and changes as the item does
    obtain ⟨rest, hrest⟩ := h.exists_known hedits.mem hiid
    refine ⟨item' :: rest, hrest.sends hsends hreports.isInsert
      (hreports.sent _ _ (rows_lt hrest.row_mem)) (hedits.items _ hrest.items) ?_ ?_⟩
    · intro other hother
      rcases List.mem_cons.1 hother with rfl | hmem
      · rw [hreports.iid]
        exact hiid
      · exact hrest.knows other (List.mem_cons_of_mem item hmem)
    · exact hreports.row _ _ _ keyed_rows hrest.rows

theorem removes (h : Linked s known answered awaited) (hremoves : Removes s s' item)
    (hiid : item.info.iid ≠ 0) : ∃ known', Linked s' known' answered awaited := by
  obtain ⟨rest, hrest⟩ := h.exists_known hremoves.mem hiid
  exact ⟨rest, hrest.sends hremoves.sends rfl (rows_lt hrest.row_mem)
    (hremoves.items _ hrest.items) (fun other hother => hrest.knows other (List.mem_cons_of_mem _ hother))
    (keyed_rows.eraseKey_perm hrest.rows)⟩

theorem creates (h : Linked s known answered awaited) (hcreates : Creates s s' item)
    (hfits : item.info.Fits) : Linked s' known answered (awaited ++ [item]) where
  items := by
    rw [hcreates.items, ← List.append_assoc]
    exact (h.items.cons item).trans (List.perm_append_singleton item _).symm
  knows := h.knows
  waits other hother := by
    rw [← List.append_assoc] at hother
    rcases List.mem_append.1 hother with hold | hnew
    · exact h.waits other hold
    · rw [List.mem_singleton.1 hnew]
      exact hcreates.iid
  rows := by
    rw [hcreates.sends.changes, hcreates.sends.pid]
    exact h.rows
  replies := by rw [hcreates.sends.toGame, hcreates.sends.uid, h.replies]
  inserts := by
    rw [hcreates.sends.toDb, hcreates.sends.pid, hcreates.sends.uid, List.filter_append, h.inserts,
      List.map_append]
    rfl
  fits other hother := by
    rcases List.mem_append.1 hother with hold | hnew
    · exact h.fits other hold
    · rw [List.mem_singleton.1 hnew]
      exact hfits
  sent := hcreates.sends.allSent h.sent rfl

/-! ## Deliveries -/

/-- The DB server handles the next message. -/
theorem handled {rest : List S2D} (h : Linked s known answered awaited)
    (hdb : s.toDb = message :: rest) :
    ∃ answered' awaited', Linked (s.handled message rest) known answered' awaited' := by
  have hsettles := SettlesAs.handled h.sent hdb
  cases hinsert : message.isInsert with
  | false =>
      obtain ⟨hrows, -, hreply⟩ := s.table.handle_change s.player.pid hinsert
      refine ⟨answered, awaited, h.items, h.knows, h.waits, ?_, ?_, ?_, h.fits, hsettles.sent⟩
      · have hchanges := h.rows
        rw [hdb, changes_cons] at hchanges
        unfold System.rows System.handled
        rw [hrows]
        exact hchanges
      · simp [System.handled, hreply, h.replies]
      · have hfilter := h.inserts
        rw [hdb, List.filter_cons_of_neg (by simp [hinsert])] at hfilter
        exact hfilter
  | true =>
      -- the first message about a new item is that of the first item that waits
      have hfilter := h.inserts
      rw [hdb, List.filter_cons_of_pos hinsert] at hfilter
      cases awaited with
      | nil => cases hfilter
      | cons item awaited =>
          have hfits : item.info.Fits := h.fits item List.mem_cons_self
          have hrest : ∀ m ∈ rest, m.Sent s.player.pid s.table.next :=
            fun m hm => h.sent m (hdb ▸ List.mem_cons_of_mem _ hm)
          obtain ⟨rfl, hinserts⟩ := List.cons.inj hfilter
          have hchanges := h.rows
          rw [hdb, changes_cons] at hchanges
          refine ⟨answered ++ [(item, s.table.next)], awaited, ?_, h.knows, ?_, ?_, ?_, ?_, ?_,
            hsettles.sent⟩
          · show s.items.Perm _
            simpa using h.items
          · simpa using h.waits
          · show (changes rest ((s.table.handle _).1.rowsOf s.player.pid)).Perm _
            rw [ItemTable.handle_insertItem hfits, ItemTable.rowsOf_insertRow, changes_fresh hrest,
              List.map_append, ← List.append_assoc]
            exact (hchanges.cons _).trans (List.perm_append_singleton _ _).symm
          · show s.toGame ++ (s.table.handle _).2.toList = _
            rw [ItemTable.handle_insertItem hfits, h.replies, List.map_append]
            rfl
          · exact hinserts
          · exact fun other hother => h.fits other (List.mem_cons_of_mem item hother)

/-- The game server handles the next reply. -/
theorem delivered {reply : UpdateItemIid} {rest : List UpdateItemIid}
    (h : Linked s known answered awaited) (hgame : s.toGame = reply :: rest) :
    ∃ known' answered', Linked ({ s with toGame := rest }.onUpdateItemIid reply) known' answered'
      awaited := by
  have hreplies := h.replies
  rw [hgame] at hreplies
  cases answered with
  | nil => cases hreplies
  | cons a answered =>
      obtain ⟨item, iid⟩ := a
      obtain ⟨rfl, htail⟩ := List.cons.inj hreplies
      have hrow : item.info.row s.player.pid iid ∈ changes s.toDb s.rows :=
        h.rows.mem_iff.2 (List.mem_append_right _ List.mem_cons_self)
      -- the first reply is for the first item that waits for one, which now knows its id
      have hitems : s.items.Perm (item :: (known ++ answered.map Prod.fst ++ awaited)) := by
        have hmiddle := h.items
        rw [List.map_cons, List.append_assoc, List.cons_append] at hmiddle
        rw [List.append_assoc]
        exact hmiddle.trans List.perm_middle
      have hwaits : item.info.iid = 0 ∧
          ∀ other ∈ answered.map Prod.fst ++ awaited, other.info.iid = 0 :=
        List.forall_mem_cons.1 h.waits
      refine ⟨item.updateIid iid :: known, answered, ?_⟩
      rw [System.onUpdateItemIid, if_pos rfl]
      refine ⟨?_, ?_, hwaits.2, ?_, htail, h.inserts, h.fits, h.sent⟩
      · exact s.player.inventory.keyed.updateKey_perm hitems (·.updateIid iid)
      · intro other hother
        rcases List.mem_cons.1 hother with rfl | hmem
        · exact Nat.ne_of_gt (rows_pos hrow)
        · exact h.knows other hmem
      · exact h.rows.trans List.perm_middle

/-! ## One step -/

/-- A step that meets the condition keeps the items and the rows together. -/
theorem step (h : Linked s known answered awaited) {o : Op} (hgood : IdFirst db s o)
    (hstep : s.step db o = .ok s') :
    ∃ known' answered' awaited', Linked s' known' answered' awaited' := by
  by_cases ho : o.IsDelivery
  · rcases delivery_cases ho hstep with ⟨message, rest, hdb, rfl⟩ | ⟨reply, rest, hgame, rfl⟩
    · obtain ⟨answered', awaited', hlinked⟩ := h.handled hdb
      exact ⟨known, answered', awaited', hlinked⟩
    · obtain ⟨known', answered', hlinked⟩ := h.delivered hgame
      exact ⟨known', answered', awaited, hlinked⟩
  · cases step_effect ho hstep with
    | keeps hkeeps => exact ⟨known, answered, awaited, h.keeps hkeeps⟩
    | edits hedits hiff =>
        obtain ⟨known', hlinked⟩ := h.edits hedits (hiff.1 hgood)
        exact ⟨known', answered, awaited, hlinked⟩
    | removes hremoves hiff =>
        obtain ⟨known', hlinked⟩ := h.removes hremoves (hiff.1 hgood)
        exact ⟨known', answered, awaited, hlinked⟩
    | creates hcreates hiff =>
        exact ⟨known, answered, _, h.creates hcreates (hiff.1 hgood)⟩

/-- After a message about the id 0 or a row that does not fit, the rows will be the same as before. -/
theorem settled_of_sends (h : Linked s known answered awaited) (hsends : Sends s s' message)
    (hcreated : message.created = none)
    (hchange : message.change (changes s.toDb s.rows) = changes s.toDb s.rows) :
    (s.items.map (·.info.content)).Perm s'.settled := by
  have hsettled : s'.settled = s.settled := by
    unfold System.settled settled
    rw [hsends.changes, hchange, hsends.toDb, List.filterMap_append, List.filterMap_cons_none hcreated,
      List.filterMap_nil, List.append_nil]
  rw [hsettled]
  exact h.perm_settled

/-- A step that does not meet the condition parts an item from its row. -/
theorem not_settles (h : Linked s known answered awaited) {o : Op} (hbad : ¬ IdFirst db s o)
    (hstep : s.step db o = .ok s') : ¬ s'.Settles db := by
  have ho : ¬ o.IsDelivery := by
    intro ho
    cases o with
    | database | deliver => exact hbad trivial
    | insertItem | trashItem | putOn | putOff | level | otherItem | otherMessage => cases ho
  cases step_effect ho hstep with
  | keeps _ hgood => exact absurd hgood hbad
  | @edits item item' hedits hiff hcontent =>
      rw [hiff, not_or, not_not] at hbad
      obtain ⟨hiid, hne⟩ := hbad
      obtain ⟨message, hsends, hreports⟩ := hedits.sends
      rw [settles_iff (hsends.allSent h.sent (hreports.sent _ _ (hiid ▸ s.table.next_pos)))]
      intro hperm
      have hitems := h.settled_of_sends hsends (created_of_not_isInsert hreports.isInsert)
        (hreports.unknown _ (hiid ▸ rows_ne_zero))
      -- the rows will be the items of before and of now, which differ in the content of one
      have hcons := List.perm_cons_erase hedits.mem
      have hcontents := ((hcons.map (·.info.content)).symm.trans hitems).trans
        (hperm.symm.trans ((hedits.items _ hcons).map (·.info.content)))
      have hcount := hcontents.count_eq item.info.content
      rw [List.map_cons, List.map_cons, List.count_cons_self,
        List.count_cons_of_ne (hcontent hne)] at hcount
      exact absurd hcount (Nat.succ_ne_self _)
  | @removes item hremoves hiff =>
      rw [hiff, not_not] at hbad
      have hsends := hremoves.sends
      rw [settles_iff (hsends.allSent h.sent (Nat.lt_of_le_of_lt (Nat.le_of_eq hbad)
        s.table.next_pos))]
      intro hperm
      have hitems := h.settled_of_sends hsends rfl (eraseKey_of_forall_ne (hbad ▸ rows_ne_zero))
      have hcons := List.perm_cons_erase hremoves.mem
      have hlength := (hperm.trans hitems.symm).length_eq
      rw [List.length_map, List.length_map, (hremoves.items _ hcons).length_eq, hcons.length_eq,
        List.length_cons] at hlength
      exact absurd hlength.symm (Nat.succ_ne_self _)
  | @creates item hcreates hiff =>
      rw [hiff] at hbad
      have hsends := hcreates.sends
      rw [settles_iff (hsends.allSent h.sent rfl)]
      intro hperm
      have hitems := h.settled_of_sends hsends (if_neg hbad) rfl
      have hlength := (hperm.trans hitems.symm).length_eq
      rw [List.length_map, List.length_map, hcreates.items, List.length_cons] at hlength
      exact absurd hlength (Nat.succ_ne_self _)

end Linked

end Bango.Items
