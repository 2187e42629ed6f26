import Bango.Items.Proofs.Agreement

set_option autoImplicit false

/-! # What a player may wear

`OnPutOnItem` asks for the class and the level of the player, and `Insert` does not: it puts on what the
row says. No row ever says so of an item that the player may not wear, also where the rows and the items
have come apart, since a message about an item names a row of the item's index or none. -/

namespace Bango.Items

open Bango.Lib

/-- A player of the class and the level may put on such items. -/
def InitItem.Allows (init : InitItem) (playerClass level : UInt8) : Prop :=
  (init.limitClass = pcAll ∨ init.limitClass = playerClass) ∧ init.limitLevel ≤ level

/-- If a row has the id, it is one of the index. -/
def ItemTable.Names (table : ItemTable) (iid : Nat) (index : UInt16) : Prop :=
  iid < table.next ∧ ∀ row ∈ table.rows, row.iditem = iid → row.index = index

/-- The local id of the item that a message is about, where it says so. -/
def S2D.localId? : S2D → Option UInt32
  | insertItem _ _ _ localId => some localId
  | updateItemNum .. | updateItemInfo .. | trashItem _ => none

namespace System

/-- The player may put on such items. -/
def Allows (s : System) (init : InitItem) : Prop := init.Allows s.player.playerClass s.player.level

/-- Neither in memory nor in the table anything is put on that the player may not put on. -/
structure Permitted (db : ItemDb) (s : System) : Prop where
  items : ∀ item ∈ s.items, item.IsPutOn → s.Allows item.init
  rows : ∀ row ∈ s.rows, row.info &&& itemPutOn ≠ 0 → ∀ init ∈ db row.index, s.Allows init

/-- No message in flight is about the next local id. -/
def IsFresh (s : System) : Prop :=
  (∀ message ∈ s.toDb, message.localId? ≠ some (s.maxLocalId + 1)) ∧
    ∀ reply ∈ s.toGame, reply.localId ≠ s.maxLocalId + 1

/-- The player's level does not fall, and local ids come round again only when no message is about
    them any more. -/
def Rises (s : System) : Op → Prop
  | .level level => s.player.level ≤ level
  | .insertItem .. => s.IsFresh
  | .trashItem _ | .putOn _ | .putOff _ | .otherItem | .database | .otherMessage _ | .deliver => True

instance (s : System) (op : Op) : Decidable (s.Rises op) :=
  match op with
  | .level level => inferInstanceAs (Decidable (s.player.level ≤ level))
  | .insertItem .. => inferInstanceAs (Decidable (_ ∧ _))
  | .trashItem _ | .putOn _ | .putOff _ | .otherItem | .database | .otherMessage _ | .deliver =>
    isTrue trivial

end System

variable {db : ItemDb} {s s' : System} {item item' : Item} {init : InitItem} {message : S2D}
  {table : ItemTable} {iid : Nat} {index : UInt16}

/-- An item with the same ids and the same index. -/
structure Item.Alike (item' item : Item) : Prop where
  localId : item'.localId = item.localId
  init : item'.init = item.init
  index : item'.info.index = item.info.index
  iid : item'.info.iid = item.info.iid

/-! ## Rows and their indexes -/

theorem ItemTable.names_zero (table : ItemTable) (index : UInt16) : table.Names 0 index :=
  ⟨table.next_pos, fun row hrow hid => absurd hid (Nat.ne_of_gt (table.positive row hrow))⟩

/-- No message gives a row another index, and a new row has a new id. -/
theorem ItemTable.Names.handle (h : table.Names iid index) (message : S2D) :
    (table.handle message).1.Names iid index := by
  obtain ⟨hlt, hrows⟩ := h
  refine ⟨Nat.lt_of_lt_of_le hlt next_le_handle, ?_⟩
  cases message with
  | insertItem info idplayer id localId =>
      by_cases hfits : info.Fits
      · rw [handle_insertItem hfits]
        exact List.forall_mem_cons.2 ⟨fun hid => absurd hid (Nat.ne_of_gt hlt), hrows⟩
      · rw [handle_insertItem_of_not_fits hfits]
        exact hrows
  | updateItemNum | updateItemInfo => exact forall_mem_updateKey hrows fun _ hrow => hrow
  | trashItem => exact fun row hrow => hrows row (mem_eraseKey.1 hrow).1

theorem InitItem.Allows.mono {playerClass level level' : UInt8} (h : init.Allows playerClass level)
    (hle : level ≤ level') : init.Allows playerClass level' :=
  ⟨h.1, UInt8.le_trans h.2 hle⟩

/-! ## Between two steps -/

namespace System

/-- Where the flags come from. -/
structure Vouched (db : ItemDb) (s : System) : Prop extends s.Permitted db where
  inits : ∀ item ∈ s.items, db item.info.index = some item.init
  names : ∀ item ∈ s.items, s.table.Names item.info.iid item.info.index
  replies : ∀ reply ∈ s.toGame, ∀ item ∈ s.items, item.localId = reply.localId →
    s.table.Names reply.iid item.info.index
  inserts : ∀ info idplayer id localId, .insertItem info idplayer id localId ∈ s.toDb →
    info.info &&& itemPutOn = 0 ∧
      ∀ item ∈ s.items, item.localId = localId → item.info.index = info.index
  infos : ∀ iid info, .updateItemInfo iid info ∈ s.toDb → info &&& itemPutOn ≠ 0 →
    ∃ index, s.table.Names iid index ∧ ∀ init ∈ db index, s.Allows init

namespace Vouched

/-- The rows of a player that has been loaded. -/
theorem of_loaded (hloaded : Loaded s) (hinits : ∀ item ∈ s.items, db item.info.index = some item.init)
    (hitems : ∀ item ∈ s.items, item.IsPutOn → s.Allows item.init) : s.Vouched db where
  items := hitems
  rows row hrow hput init hinit := by
    obtain ⟨item, hitem, rfl⟩ := List.mem_map.1 (hloaded.items.mem_iff.2 hrow)
    rw [show init = item.init from Option.some.inj (hinit.symm.trans (hinits item hitem))]
    exact hitems item hitem hput
  inits := hinits
  names item hitem := by
    have hrow := hloaded.items.mem_iff.1 (List.mem_map_of_mem hitem)
    have hmem := (List.mem_filter.1 hrow).1
    refine ⟨s.table.bounded _ hmem, fun row hother hid => ?_⟩
    rw [List.inj_on_of_nodup_map s.table.keyed hother hmem hid]
    rfl
  replies := by simp [hloaded.quiet.2]
  inserts := by simp [hloaded.quiet.1]
  infos := by simp [hloaded.quiet.1]

/-! ### Operations -/

/-- A message about ids that have been given is written, the items having changed in their quantities and
    flags at most. -/
theorem sends (h : s.Vouched db) (hsends : Sends s s' message)
    (hallows : ∀ init, s.Allows init → s'.Allows init)
    (hitems : ∀ item' ∈ s'.items, ∃ item ∈ s.items, item'.Alike item ∧
      (item'.IsPutOn → s.Allows item.init))
    (hinsert : message.isInsert = false)
    (hinfo : ∀ iid info, message = .updateItemInfo iid info → info &&& itemPutOn ≠ 0 →
      ∃ index, s.table.Names iid index ∧ ∀ init ∈ db index, s.Allows init) : s'.Vouched db where
  items item' hitem' hput := by
    obtain ⟨item, -, halike, hallowed⟩ := hitems item' hitem'
    rw [halike.init]
    exact hallows _ (hallowed hput)
  rows row hrow hput init hinit := by
    rw [hsends.rows] at hrow
    exact hallows _ (h.rows row hrow hput init hinit)
  inits item' hitem' := by
    obtain ⟨item, hitem, halike, -⟩ := hitems item' hitem'
    rw [halike.init, halike.index]
    exact h.inits item hitem
  names item' hitem' := by
    obtain ⟨item, hitem, halike, -⟩ := hitems item' hitem'
    rw [halike.iid, halike.index, hsends.table]
    exact h.names item hitem
  replies reply hreply item' hitem' hlocal := by
    obtain ⟨item, hitem, halike, -⟩ := hitems item' hitem'
    rw [hsends.toGame] at hreply
    rw [halike.index, hsends.table]
    exact h.replies reply hreply item hitem (halike.localId.symm.trans hlocal)
  inserts info idplayer id localId hmem := by
    rw [hsends.toDb, List.mem_append, List.mem_singleton] at hmem
    rcases hmem with hold | rfl
    · obtain ⟨hinfo, hindex⟩ := h.inserts info idplayer id localId hold
      refine ⟨hinfo, fun item' hitem' hlocal => ?_⟩
      obtain ⟨item, hitem, halike, -⟩ := hitems item' hitem'
      rw [halike.index]
      exact hindex item hitem (halike.localId.symm.trans hlocal)
    · cases hinsert
  infos iid info hmem hput := by
    rw [hsends.toDb, List.mem_append, List.mem_singleton] at hmem
    have hnames : ∃ index, s.table.Names iid index ∧ ∀ init ∈ db index, s.Allows init := by
      rcases hmem with hold | hnew
      · exact h.infos iid info hold hput
      · exact hinfo iid info hnew.symm hput
    obtain ⟨index, hindex, hallowed⟩ := hnames
    exact ⟨index, hsends.table ▸ hindex, fun init hinit => hallows _ (hallowed init hinit)⟩

/-- An item that the player may put on vouches for the row of its id. -/
theorem exists_names (h : s.Vouched db) (hitem : item ∈ s.items) (hallowed : s.Allows item.init) :
    ∃ index, s.table.Names item.info.iid index ∧ ∀ init ∈ db index, s.Allows init := by
  refine ⟨item.info.index, h.names item hitem, fun init hinit => ?_⟩
  rw [show init = item.init from Option.some.inj (hinit.symm.trans (h.inits item hitem))]
  exact hallowed

/-- One item is changed, and a message about it written. -/
theorem edit (h : s.Vouched db) {inventory : Inventory} {f : Item → Item} (hmem : item ∈ s.items)
    (hf : (f item).Alike item) (hput : (f item).IsPutOn → s.Allows item.init)
    (hitems : inventory.items = updateKey Item.localId item.localId f s.items)
    (hinsert : message.isInsert = false)
    (hinfo : ∀ iid info, message = .updateItemInfo iid info →
      iid = item.info.iid ∧ s.Allows item.init) :
    ((s.withInventory inventory).write message).Vouched db := by
  refine h.sends ⟨rfl, rfl, rfl, rfl, rfl⟩ (fun _ hallowed => hallowed) ?_ hinsert ?_
  · intro item' hitem'
    have hcons := List.perm_cons_erase hmem
    have hperm : inventory.items.Perm (f item :: s.items.erase item) :=
      hitems ▸ s.player.inventory.keyed.updateKey_perm hcons f
    rcases List.mem_cons.1 (hperm.mem_iff.1 hitem') with rfl | hother
    · exact ⟨item, hmem, hf, hput⟩
    · have hitem := List.mem_of_mem_erase hother
      exact ⟨item', hitem, ⟨rfl, rfl, rfl, rfl⟩, h.items item' hitem⟩
  · intro iid info hmessage _
    obtain ⟨rfl, hallowed⟩ := hinfo iid info hmessage
    exact h.exists_names hmem hallowed

/-- An item is created, with a local id that no message in flight has. -/
theorem creates (h : s.Vouched db) (hfresh : s.IsFresh) {num : UInt32}
    (hcreates : Creates s s' (s.newItem init index num))
    (hallows : ∀ init, s'.Allows init ↔ s.Allows init) (hdb : db index = some init) :
    s'.Vouched db := by
  obtain ⟨hitems, -, hsends⟩ := hcreates
  have hflags : (s.newItem init index num).info.info &&& itemPutOn = 0 := UInt32.zero_and
  have hmem : ∀ item' ∈ s'.items, item' = s.newItem init index num ∨ item' ∈ s.items := by
    intro item' hitem'
    rwa [hitems, List.mem_cons] at hitem'
  constructor
  · constructor
    · intro item' hitem' hput
      rw [hallows]
      rcases hmem item' hitem' with rfl | hitem
      · exact absurd hflags hput
      · exact h.items item' hitem hput
    · intro row hrow hput init hinit
      rw [hsends.rows] at hrow
      rw [hallows]
      exact h.rows row hrow hput init hinit
  · intro item' hitem'
    rcases hmem item' hitem' with rfl | hitem
    · exact hdb
    · exact h.inits item' hitem
  · intro item' hitem'
    rw [hsends.table]
    rcases hmem item' hitem' with rfl | hitem
    · exact s.table.names_zero _
    · exact h.names item' hitem
  · intro reply hreply item' hitem' hlocal
    rw [hsends.toGame] at hreply
    rw [hsends.table]
    rcases hmem item' hitem' with rfl | hitem
    · exact absurd hlocal.symm (hfresh.2 reply hreply)
    · exact h.replies reply hreply item' hitem hlocal
  · intro info idplayer id localId hmessage
    rw [hsends.toDb, List.mem_append, List.mem_singleton] at hmessage
    rcases hmessage with hold | hnew
    · obtain ⟨hinfo, hindex⟩ := h.inserts info idplayer id localId hold
      refine ⟨hinfo, fun item' hitem' hlocal => ?_⟩
      rcases hmem item' hitem' with rfl | hitem
      · exact absurd (congrArg some hlocal.symm) (hfresh.1 _ hold)
      · exact hindex item' hitem hlocal
    · obtain ⟨rfl, -, -, rfl⟩ := S2D.insertItem.inj hnew
      refine ⟨hflags, fun item' hitem' hlocal => ?_⟩
      have hnew' : s.newItem init index num ∈ s'.items := hitems ▸ List.mem_cons_self
      rw [List.inj_on_of_nodup_map s'.player.inventory.keyed hitem' hnew' hlocal]
  · intro iid info hmessage hput
    rw [hsends.toDb, List.mem_append, List.mem_singleton] at hmessage
    rcases hmessage with hold | hnew
    · obtain ⟨index, hindex, hallowed⟩ := h.infos iid info hold hput
      exact ⟨index, hsends.table ▸ hindex, fun init hinit => (hallows _).2 (hallowed init hinit)⟩
    · cases hnew

theorem allows_createItem {num : UInt32} (h : s.createItem db index num = .ok s') (init : InitItem) :
    s'.Allows init ↔ s.Allows init := by
  unfold System.createItem at h
  split at h
  · cases h
    exact Iff.rfl
  · dsimp only at h
    split at h
    · cases h
    · cases h
    next t item hinsert =>
      obtain ⟨⟨inventory, maxLocalId, rfl⟩, -⟩ := insert_spec hinsert
      cases h
      exact Iff.rfl

theorem createItem (h : s.Vouched db) (hfresh : s.IsFresh) {num : UInt32}
    (hstep : s.createItem db index num = .ok s') : s'.Vouched db := by
  cases hdb : db index with
  | none =>
      rw [createItem_of_none hdb] at hstep
      exact Except.ok.inj hstep ▸ h
  | some init =>
      by_cases hfree : ∀ item ∈ s.items, item.localId ≠ s.maxLocalId + 1
      · obtain ⟨t, ht, hcreates⟩ := createItem_of_free num hdb hfree
        rw [hstep, Except.ok.injEq] at ht
        subst ht
        exact h.creates hfresh hcreates (allows_createItem hstep) hdb
      · rw [createItem_of_taken hdb hfree] at hstep
        cases hstep

theorem insertItem (h : s.Vouched db) (hfresh : s.IsFresh) {met : Nat} {num : UInt32}
    (hstep : s.insertItem db met index num = .ok s') : s'.Vouched db := by
  unfold System.insertItem at hstep
  split at hstep
  · exact h.createItem hfresh hstep
  next item hfind =>
    have hmem := Inventory.mem_of_findByIndex hfind
    split at hstep
    · rw [← Except.ok.inj hstep]
      exact h.edit hmem ⟨rfl, rfl, rfl, rfl⟩ (h.items item hmem) rfl rfl (fun _ _ h => by cases h)
    · exact h.createItem hfresh hstep

theorem trashItem (h : s.Vouched db) (localId : UInt32) : (s.trashItem localId).Vouched db := by
  unfold System.trashItem
  split
  · exact h
  next inventory htrash =>
    obtain ⟨item, -, hitems⟩ := Inventory.trash_spec htrash
    refine h.sends ⟨rfl, rfl, rfl, rfl, rfl⟩ (fun _ hallowed => hallowed) ?_ rfl (fun _ _ h => by cases h)
    intro item' hitem'
    have hmem : item' ∈ inventory.items := hitem'
    rw [hitems] at hmem
    have hitem := (mem_eraseKey.1 hmem).1
    exact ⟨item', hitem, ⟨rfl, rfl, rfl, rfl⟩, h.items item' hitem⟩

/-- What is put on has passed the checks of `OnPutOnItem`. -/
theorem allows_of_tryPutOn {localId : UInt32} {inventory : Inventory}
    (h : s.tryPutOn localId = some (item', inventory)) :
    ∃ item, s.player.inventory.findByLocalId localId = some item ∧ s.Allows item.init ∧
      s.player.inventory.putOn localId = some (item', inventory) := by
  unfold System.tryPutOn at h
  split at h
  · cases h
  next item hfind =>
    split at h
    · cases h
    next hclass =>
      split at h
      · cases h
      next hlevel =>
        refine ⟨item, hfind, ⟨?_, UInt8.not_lt.1 hlevel⟩, h⟩
        by_cases hall : item.init.limitClass = pcAll
        · exact .inl hall
        · exact .inr (Decidable.not_not.1 fun hne => hclass ⟨hall, hne⟩)

theorem onPutOnItem (h : s.Vouched db) (localId : UInt32) : (s.onPutOnItem localId).Vouched db := by
  unfold System.onPutOnItem
  split
  · exact h
  next item' inventory hput =>
    obtain ⟨item, hfind, hallowed, hputOn⟩ := allows_of_tryPutOn hput
    obtain ⟨item, hfind', -, rfl, hitems⟩ := Inventory.putOn_spec hputOn
    rw [hfind, Option.some.injEq] at hfind'
    subst hfind'
    obtain ⟨hmem, rfl⟩ := mem_of_findByLocalId hfind
    refine h.edit hmem ⟨rfl, rfl, rfl, rfl⟩ (fun _ => hallowed) hitems rfl ?_
    rintro iid info ⟨⟩
    exact ⟨rfl, hallowed⟩

theorem onPutOffItem (h : s.Vouched db) {localId : UInt32} (hstep : s.onPutOffItem localId = .ok s') :
    s'.Vouched db := by
  unfold System.onPutOffItem at hstep
  split at hstep
  · cases hstep
  · exact Except.ok.inj hstep ▸ h
  next item' inventory hput =>
    rw [← Except.ok.inj hstep]
    obtain ⟨item, hfind, hon, rfl, hitems⟩ := Inventory.putOff_spec hput
    obtain ⟨hmem, rfl⟩ := mem_of_findByLocalId hfind
    have hallowed := h.items item hmem hon
    refine h.edit hmem ⟨rfl, rfl, rfl, rfl⟩ (fun _ => hallowed) hitems rfl ?_
    rintro iid info ⟨⟩
    exact ⟨rfl, hallowed⟩

/-! ### Deliveries -/

/-- The DB server handles a message: a new row has no flags, and new flags are those of an item. -/
theorem rows_handle (h : s.Vouched db) (hmem : message ∈ s.toDb) {row : Row}
    (hrow : row ∈ (s.table.handle message).1.rowsOf s.player.pid)
    (hput : row.info &&& itemPutOn ≠ 0) (hinit : init ∈ db row.index) : s.Allows init := by
  obtain ⟨hrow, hpid⟩ := List.mem_filter.1 hrow
  have hold : ∀ other ∈ s.table.rows, other.idplayer = s.player.pid → other.info &&& itemPutOn ≠ 0 →
      init ∈ db other.index → s.Allows init := fun other hother hpid hput hinit =>
    h.rows other (List.mem_filter.2 ⟨hother, decide_eq_true hpid⟩) hput init hinit
  rw [decide_eq_true_eq] at hpid
  cases message with
  | insertItem info idplayer id localId =>
      have hflags := (h.inserts info idplayer id localId hmem).1
      by_cases hfits : info.Fits
      · rw [ItemTable.handle_insertItem hfits] at hrow
        rcases List.mem_cons.1 hrow with rfl | hrow
        · exact absurd hflags hput
        · exact hold row hrow hpid hput hinit
      · rw [ItemTable.handle_insertItem_of_not_fits hfits] at hrow
        exact hold row hrow hpid hput hinit
  | updateItemNum iid num =>
      obtain ⟨other, hother, rfl⟩ := List.mem_map.1 hrow
      by_cases hid : other.iditem = iid
      · rw [if_pos hid] at hpid hput hinit
        exact hold other hother hpid hput hinit
      · rw [if_neg hid] at hpid hput hinit
        exact hold other hother hpid hput hinit
  | updateItemInfo iid info =>
      obtain ⟨other, hother, rfl⟩ := List.mem_map.1 hrow
      by_cases hid : other.iditem = iid
      · rw [if_pos hid] at hput hinit
        obtain ⟨index, ⟨-, hindex⟩, hallowed⟩ := h.infos iid info hmem hput
        have hindex' : other.index = index := hindex other hother hid
        exact hallowed init (hindex' ▸ hinit)
      · rw [if_neg hid] at hpid hput hinit
        exact hold other hother hpid hput hinit
  | trashItem iid => exact hold row (mem_eraseKey.1 hrow).1 hpid hput hinit

/-- The reply for a new item has the id of its row. -/
theorem names_reply (h : s.Vouched db) (hmem : message ∈ s.toDb) {reply : UpdateItemIid}
    (hreply : reply ∈ (s.table.handle message).2) (hitem : item ∈ s.items)
    (hlocal : item.localId = reply.localId) :
    (s.table.handle message).1.Names reply.iid item.info.index := by
  cases message with
  | insertItem info idplayer id localId =>
      by_cases hfits : info.Fits
      · rw [ItemTable.handle_insertItem hfits] at hreply ⊢
        obtain rfl := Option.some.inj hreply
        have hindex := (h.inserts info idplayer id localId hmem).2 item hitem hlocal
        refine ⟨Nat.lt_succ_self _, List.forall_mem_cons.2 ⟨fun _ => hindex.symm, ?_⟩⟩
        intro row hrow hid
        exact absurd hid (Nat.ne_of_lt (s.table.bounded row hrow))
      · rw [ItemTable.handle_insertItem_of_not_fits hfits] at hreply
        cases hreply
  | updateItemNum | updateItemInfo | trashItem => cases hreply

theorem handled (h : s.Vouched db) {rest : List S2D} (hdb : s.toDb = message :: rest) :
    (s.handled message rest).Vouched db := by
  have hmem : message ∈ s.toDb := hdb ▸ List.mem_cons_self
  have hrest : ∀ other ∈ rest, other ∈ s.toDb := fun other hother => hdb ▸ List.mem_cons_of_mem _ hother
  refine ⟨⟨h.items, fun row hrow hput init hinit => h.rows_handle hmem hrow hput hinit⟩, h.inits,
    fun item hitem => (h.names item hitem).handle message, ?_, ?_, ?_⟩
  · intro reply hreply item hitem hlocal
    rcases List.mem_append.1 hreply with hold | hnew
    · exact (h.replies reply hold item hitem hlocal).handle message
    · exact h.names_reply hmem (Option.mem_toList.1 hnew) hitem hlocal
  · exact fun info idplayer id localId hother => h.inserts info idplayer id localId (hrest _ hother)
  · intro iid info hother hput
    obtain ⟨index, hindex, hallowed⟩ := h.infos iid info (hrest _ hother) hput
    exact ⟨index, hindex.handle message, hallowed⟩

/-- The DB server handles a message about another player's items. -/
theorem otherMessage (h : s.Vouched db) (hforeign : message.Foreign s.player.pid s.table.rows) :
    Vouched db { s with table := (s.table.handle message).1 } := by
  refine ⟨⟨h.items, fun row hrow hput init hinit => ?_⟩, h.inits,
    fun item hitem => (h.names item hitem).handle message,
    fun reply hreply item hitem hlocal => (h.replies reply hreply item hitem hlocal).handle message,
    h.inserts, fun iid info hmem hput => ?_⟩
  · have hrow' : row ∈ (s.table.handle message).1.rowsOf s.player.pid := hrow
    rw [ItemTable.rowsOf_handle_of_foreign hforeign] at hrow'
    exact h.rows row hrow' hput init hinit
  · obtain ⟨index, hindex, hallowed⟩ := h.infos iid info hmem hput
    exact ⟨index, hindex.handle message, hallowed⟩

/-- The game server handles the next reply. -/
theorem onUpdateItemIid (h : s.Vouched db) {reply : UpdateItemIid} {rest : List UpdateItemIid}
    (hgame : s.toGame = reply :: rest) :
    ({ s with toGame := rest }.onUpdateItemIid reply).Vouched db := by
  have hmem : reply ∈ s.toGame := hgame ▸ List.mem_cons_self
  have hrest : ∀ other ∈ rest, other ∈ s.toGame := fun other hother =>
    hgame ▸ List.mem_cons_of_mem _ hother
  unfold System.onUpdateItemIid
  split
  next =>
    -- an item is as it was, but for its id
    have hupdated : ∀ item' ∈ updateKey Item.localId reply.localId (·.updateIid reply.iid) s.items,
        ∃ item ∈ s.items, item'.localId = item.localId ∧ item'.init = item.init ∧
          item'.info.index = item.info.index ∧ item'.info.info = item.info.info ∧
          (item'.info.iid = item.info.iid ∨ item'.info.iid = reply.iid ∧ item.localId = reply.localId) := by
      intro item' hitem'
      obtain ⟨item, hitem, rfl⟩ := List.mem_map.1 hitem'
      split
      next hlocal => exact ⟨item, hitem, rfl, rfl, rfl, rfl, .inr ⟨rfl, hlocal⟩⟩
      next => exact ⟨item, hitem, rfl, rfl, rfl, rfl, .inl rfl⟩
    refine ⟨⟨fun item' hitem' hput => ?_, h.rows⟩, fun item' hitem' => ?_, fun item' hitem' => ?_,
      fun other hother item' hitem' hlocal => ?_, fun info idplayer id localId hmessage => ?_, h.infos⟩
    · obtain ⟨item, hitem, -, hinit, -, hinfo, -⟩ := hupdated item' hitem'
      unfold Item.IsPutOn at hput
      rw [hinfo] at hput
      rw [hinit]
      exact h.items item hitem hput
    · obtain ⟨item, hitem, -, hinit, hindex, -, -⟩ := hupdated item' hitem'
      rw [hinit, hindex]
      exact h.inits item hitem
    · obtain ⟨item, hitem, -, -, hindex, -, hiid⟩ := hupdated item' hitem'
      rw [hindex]
      rcases hiid with hiid | ⟨hiid, hlocal⟩
      · rw [hiid]
        exact h.names item hitem
      · rw [hiid]
        exact h.replies reply hmem item hitem hlocal
    · obtain ⟨item, hitem, hid, -, hindex, -, -⟩ := hupdated item' hitem'
      rw [hindex]
      exact h.replies other (hrest other hother) item hitem (hid.symm.trans hlocal)
    · obtain ⟨hinfo, hindex⟩ := h.inserts info idplayer id localId hmessage
      refine ⟨hinfo, fun item' hitem' hlocal => ?_⟩
      obtain ⟨item, hitem, hid, -, hindex', -, -⟩ := hupdated item' hitem'
      rw [hindex']
      exact hindex item hitem (hid.symm.trans hlocal)
  next =>
    exact ⟨⟨h.items, h.rows⟩, h.inits, h.names, fun other hother => h.replies other (hrest other hother),
      h.inserts, h.infos⟩

theorem level (h : s.Vouched db) {level : UInt8} (hle : s.player.level ≤ level) :
    Vouched db { s with player := { s.player with level } } := by
  have hallows : ∀ init, s.Allows init →
      System.Allows { s with player := { s.player with level } } init := fun _ hallowed => hallowed.mono hle
  refine ⟨⟨fun item hitem hput => hallows _ (h.items item hitem hput),
    fun row hrow hput init hinit => hallows _ (h.rows row hrow hput init hinit)⟩,
    h.inits, h.names, h.replies, h.inserts, fun iid info hmem hput => ?_⟩
  obtain ⟨index, hindex, hallowed⟩ := h.infos iid info hmem hput
  exact ⟨index, hindex, fun init hinit => hallows _ (hallowed init hinit)⟩

theorem step (h : s.Vouched db) {op : Op} (hrises : s.Rises op) (hstep : s.step db op = .ok s') :
    s'.Vouched db := by
  by_cases ho : op.IsDelivery
  · rcases delivery_cases ho hstep with ⟨message, rest, hdb, rfl⟩ | ⟨reply, rest, hgame, rfl⟩
    · exact h.handled hdb
    · exact h.onUpdateItemIid hgame
  · cases op with
    | insertItem met index num => exact h.insertItem hrises (ok_of_mapError hstep)
    | trashItem localId =>
        cases hstep
        exact h.trashItem localId
    | putOn localId =>
        cases hstep
        exact h.onPutOnItem localId
    | putOff localId => exact h.onPutOffItem (ok_of_mapError hstep)
    | level level =>
        cases hstep
        exact h.level hrises
    | otherItem =>
        cases hstep
        exact ⟨⟨h.items, h.rows⟩, h.inits, h.names, h.replies, h.inserts, h.infos⟩
    | otherMessage message =>
        by_cases hforeign : message.Foreign s.player.pid s.table.rows
        · simp only [System.step, hforeign, if_true, Except.ok.injEq] at hstep
          exact hstep ▸ h.otherMessage hforeign
        · simp [System.step, hforeign] at hstep
    | database | deliver => exact absurd trivial ho

end Vouched

/-! ## Whole runs -/

/-- `Insert` adds an item of the table or none. -/
theorem mem_of_insert {inv inv' : Inventory} {localId : UInt32} {info : ItemInfo} {result : Option Item}
    (h : inv.insert db localId info = .ok (inv', result)) (hitem : item ∈ inv'.items) :
    item ∈ inv.items ∨ item.info = info ∧ db info.index = some item.init := by
  unfold Inventory.insert at h
  split at h
  · cases h
    exact .inl hitem
  next init hinit =>
    dsimp only at h
    split at h
    · split at h
      · cases h
      next inv'' hput =>
        cases h
        rw [Inventory.items_applyPutOn hput] at hitem
        rcases List.mem_cons.1 hitem with rfl | hold
        · exact .inr ⟨rfl, hinit⟩
        · exact .inl hold
    · cases h
      exact .inl hitem

/-- The items that are loaded are put on as the rows say. -/
theorem allows_of_onLoadItems {infos : List ItemInfo} (hinfos : ∀ info ∈ infos,
      info.info &&& itemPutOn ≠ 0 → ∀ init ∈ db info.index, s.Allows init)
    (hitems : ∀ item ∈ s.items, item.IsPutOn → s.Allows item.init)
    (hload : onLoadItems db infos s = .ok s') :
    ∀ item ∈ s'.items, item.IsPutOn → s'.Allows item.init := by
  induction infos generalizing s with
  | nil =>
      cases hload
      exact hitems
  | cons info infos ih =>
      obtain ⟨hinfo, hinfos⟩ := List.forall_mem_cons.1 hinfos
      unfold onLoadItems at hload
      split at hload
      · cases hload
      next t result hinsert =>
        unfold System.insert at hinsert
        dsimp only at hinsert
        split at hinsert
        · cases hinsert
        next inventory result' hinsert' =>
          cases hinsert
          refine ih ?_ ?_ hload
          · exact hinfos
          · intro item hitem hput
            rcases mem_of_insert hinsert' hitem with hold | ⟨rfl, hinit⟩
            · exact hitems item hold hput
            · exact hinfo hput item.init hinit

end System

/-- A player that has been loaded with nothing on that it may not put on never has such an item on,
    whatever is done to its items and in whatever order the messages arrive; nor would it if its items were
    loaded again at any moment. -/
theorem run_permitted {ops : List Op} (hrun : run (System.step db) s ops = .ok s') (hloaded : Loaded s)
    (hinits : ∀ item ∈ s.items, db item.info.index = some item.init)
    (hitems : ∀ item ∈ s.items, item.IsPutOn → s.Allows item.init)
    (hadm : Admissible (System.step db) System.Rises s ops) :
    (∀ item ∈ s'.items, item.IsPutOn → s'.Allows item.init) ∧
      ∀ fresh loaded, fresh.items = [] → fresh.player.playerClass = s'.player.playerClass →
        fresh.player.level = s'.player.level →
        System.onLoadItems db (s'.table.loadItems s'.player.pid) fresh = .ok loaded →
        ∀ item ∈ loaded.items, item.IsPutOn → s'.Allows item.init := by
  have hpreserved : ∀ (t : System) op t', t.Vouched db → t.Rises op → t.step db op = .ok t' → t'.Vouched db :=
    fun _ _ _ h hrises hstep => h.step hrises hstep
  have h : s'.Vouched db := run_invariant hpreserved (.of_loaded hloaded hinits hitems) hadm hrun
  refine ⟨h.items, fun fresh loaded hempty hclass hlevel hload item hitem hput => ?_⟩
  have hallows : ∀ init, s'.Allows init → fresh.Allows init := by
    intro init hallowed
    unfold System.Allows
    rw [hclass, hlevel]
    exact hallowed
  have hrows : ∀ info ∈ s'.table.loadItems s'.player.pid, info.info &&& itemPutOn ≠ 0 →
      ∀ init ∈ db info.index, fresh.Allows init := by
    intro info hinfo hput init hinit
    obtain ⟨row, hrow, rfl⟩ := List.mem_map.1 hinfo
    exact hallows init (h.rows row hrow hput init hinit)
  have hnone : ∀ item ∈ fresh.items, item.IsPutOn → fresh.Allows item.init := by
    simp [hempty]
  obtain ⟨⟨inventory, maxLocalId, rfl⟩, -⟩ := onLoadItems_spec hload
  have hallowed := System.allows_of_onLoadItems hrows hnone hload item hitem hput
  unfold System.Allows at hallowed ⊢
  rw [← hclass, ← hlevel]
  exact hallowed

theorem run_permitted_swordBearer : ∃ s',
    run (System.step potionAndSword) swordBearer
      [.putOn 1, .insertItem 0 47 3, .level 2, .database, .putOff 1, .database, .putOn 1, .deliver] = .ok s' ∧
    (∃ item ∈ s'.items, item.IsPutOn) ∧ ∀ item ∈ s'.items, item.IsPutOn → s'.Allows item.init := by
  obtain ⟨s', hrun, hput⟩ : ∃ s',
      run (System.step potionAndSword) swordBearer
        [.putOn 1, .insertItem 0 47 3, .level 2, .database, .putOff 1, .database, .putOn 1, .deliver] =
          .ok s' ∧ ∃ item ∈ s'.items, item.IsPutOn := ⟨_, rfl, by decide⟩
  refine ⟨s', hrun, hput, (run_permitted hrun ⟨by decide, by decide⟩ (by decide) ?_ (by decide)).1⟩
  intro item hitem
  rw [List.mem_singleton.1 hitem]
  exact fun _ => ⟨.inl rfl, by decide⟩

end Bango.Items
