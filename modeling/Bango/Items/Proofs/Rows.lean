import Bango.Items.System

set_option autoImplicit false

/-! # The rows behind the messages

A message about an id changes the rows that exist when it was sent, wherever it stands among the
messages in flight, and a message about a new item adds a row. So the rows of a player, once all
messages have arrived, are those of today with the changes in flight, and the rows in flight. -/

namespace Bango.Items

open Bango.Lib

/-! ## What is compared -/

/-- The index, quantity and info flags of an item. -/
abbrev Content : Type := UInt16 × UInt32 × UInt32

def ItemInfo.content (info : ItemInfo) : Content := (info.index, info.num, info.info)

def Row.content (row : Row) : Content := (row.index, row.num, row.info)

/-- The row of an item in memory. -/
def Item.row (pid : Int32) (item : Item) : Row := item.info.row pid item.info.iid

/-- The rows of a player. -/
def ItemTable.rowsOf (pid : Int32) (table : ItemTable) : List Row :=
  table.rows.filter (·.idplayer = pid)

/-! ## Changes in flight -/

/-- What a message changes in the rows that exist. -/
def S2D.change : S2D → List Row → List Row
  | insertItem .. => id
  | updateItemNum iid num => updateKey Row.iditem iid ({ · with num })
  | updateItemInfo iid info => updateKey Row.iditem iid ({ · with info })
  | trashItem iid => eraseKey Row.iditem iid

/-- Is it about a new item? -/
def S2D.isInsert : S2D → Bool
  | insertItem .. => true
  | updateItemNum .. | updateItemInfo .. | trashItem _ => false

/-- What messages change in the rows that exist. -/
def changes (messages : List S2D) (rows : List Row) : List Row :=
  messages.foldl (fun rows message => message.change rows) rows

/-- What the row holds that a message adds. -/
def S2D.created : S2D → Option Content
  | insertItem info _ _ _ => if info.Fits then some info.content else none
  | updateItemNum .. | updateItemInfo .. | trashItem _ => none

/-- What the rows hold once the messages have arrived. -/
def settled (messages : List S2D) (rows : List Row) : List Content :=
  (changes messages rows).map Row.content ++ messages.filterMap S2D.created

/-- A message of the player, about a row that the table has given an id. -/
def S2D.Sent (pid : Int32) (next : Nat) : S2D → Prop
  | insertItem _ idplayer _ _ => idplayer = pid
  | updateItemNum iid _ | updateItemInfo iid _ | trashItem iid => iid < next

variable {messages : List S2D} {message : S2D} {rows : List Row} {pid : Int32}

@[simp]
theorem S2D.change_updateItemNum (iid : Nat) (num : UInt32) :
    (updateItemNum iid num).change rows = updateKey Row.iditem iid ({ · with num }) rows := rfl

@[simp]
theorem S2D.change_updateItemInfo (iid : Nat) (info : UInt32) :
    (updateItemInfo iid info).change rows = updateKey Row.iditem iid ({ · with info }) rows := rfl

@[simp]
theorem S2D.change_trashItem (iid : Nat) :
    (trashItem iid).change rows = eraseKey Row.iditem iid rows := rfl

@[simp]
theorem changes_nil : changes [] rows = rows := rfl

@[simp]
theorem changes_cons : changes (message :: messages) rows = changes messages (message.change rows) :=
  rfl

@[simp]
theorem changes_concat :
    changes (messages ++ [message]) rows = message.change (changes messages rows) := by
  simp [changes]

theorem S2D.Sent.mono {next next' : Nat} (h : message.Sent pid next) (hle : next ≤ next') :
    message.Sent pid next' := by
  cases message with
  | insertItem => exact h
  | updateItemNum | updateItemInfo | trashItem => exact Nat.lt_of_lt_of_le h hle

/-- A change adds no ids. -/
theorem ids_change : ((message.change rows).map Row.iditem).Sublist (rows.map Row.iditem) := by
  cases message with
  | insertItem => exact List.Sublist.refl _
  | updateItemNum => rw [S2D.change_updateItemNum, map_updateKey (by intro row; rfl)]
  | updateItemInfo => rw [S2D.change_updateItemInfo, map_updateKey (by intro row; rfl)]
  | trashItem => exact List.filter_sublist.map _

theorem ids_changes : ((changes messages rows).map Row.iditem).Sublist (rows.map Row.iditem) := by
  induction messages generalizing rows with
  | nil => exact List.Sublist.refl _
  | cons message messages ih => exact (ih).trans ids_change

theorem keyed_changes (h : Keyed Row.iditem rows) : Keyed Row.iditem (changes messages rows) :=
  h.sublist ids_changes

theorem pos_of_mem_changes (h : ∀ row ∈ rows, 0 < row.iditem) {row : Row}
    (hrow : row ∈ changes messages rows) : 0 < row.iditem := by
  obtain ⟨row', hrow', hid⟩ := List.mem_map.1 (ids_changes.mem (List.mem_map_of_mem hrow))
  rw [← hid]
  exact h row' hrow'

theorem lt_of_mem_changes {next : Nat} (h : ∀ row ∈ rows, row.iditem < next) {row : Row}
    (hrow : row ∈ changes messages rows) : row.iditem < next := by
  obtain ⟨row', hrow', hid⟩ := List.mem_map.1 (ids_changes.mem (List.mem_map_of_mem hrow))
  rw [← hid]
  exact h row' hrow'

/-- A message that was sent before a row got its id does not change it. -/
theorem change_fresh {row : Row} (h : message.Sent pid row.iditem) :
    message.change (row :: rows) = row :: message.change rows := by
  cases message with
  | insertItem => rfl
  | updateItemNum | updateItemInfo => simp [updateKey, Nat.ne_of_gt h]
  | trashItem => simp [eraseKey, Nat.ne_of_gt h]

theorem changes_fresh {row : Row} (h : ∀ message ∈ messages, message.Sent pid row.iditem) :
    changes messages (row :: rows) = row :: changes messages rows := by
  induction messages generalizing rows with
  | nil => rfl
  | cons message messages ih =>
      obtain ⟨hmessage, hmessages⟩ := List.forall_mem_cons.1 h
      rw [changes_cons, changes_cons, change_fresh hmessage, ih hmessages]

/-- A change of the rows is a change of a player's rows. -/
theorem filter_change (message : S2D) :
    (message.change rows).filter (·.idplayer = pid) =
      message.change (rows.filter (·.idplayer = pid)) := by
  cases message with
  | insertItem => rfl
  | updateItemNum | updateItemInfo => exact filter_updateKey fun _ => rfl
  | trashItem => exact filter_eraseKey

/-! ## The DB server -/

namespace ItemTable

variable {table : ItemTable} {next : Nat}

theorem keyed_rowsOf : Keyed Row.iditem (table.rowsOf pid) :=
  table.keyed.sublist (List.filter_sublist.map _)

theorem pos_of_mem_rowsOf {row : Row} (h : row ∈ table.rowsOf pid) : 0 < row.iditem :=
  table.positive row (List.mem_filter.1 h).1

theorem lt_of_mem_rowsOf {row : Row} (h : row ∈ table.rowsOf pid) : row.iditem < table.next :=
  table.bounded row (List.mem_filter.1 h).1

theorem handle_insertItem {info : ItemInfo} (h : info.Fits) (idplayer : Int32) (id localId : UInt32) :
    table.handle (.insertItem info idplayer id localId) =
      (table.insertRow idplayer info, some ⟨id, localId, table.next⟩) :=
  if_pos h

theorem handle_insertItem_of_not_fits {info : ItemInfo} (h : ¬ info.Fits) (idplayer : Int32)
    (id localId : UInt32) : table.handle (.insertItem info idplayer id localId) = (table, none) :=
  if_neg h

theorem next_le_handle : table.next ≤ (table.handle message).1.next := by
  cases message with
  | insertItem info idplayer id localId =>
      by_cases hfits : info.Fits
      · rw [handle_insertItem hfits]
        exact Nat.le_succ _
      · exact Nat.le_of_eq (by rw [handle_insertItem_of_not_fits hfits])
  | updateItemNum | updateItemInfo | trashItem => exact Nat.le_refl _

/-- A message about an id changes the rows, and has no reply. -/
theorem handle_change (table : ItemTable) (pid : Int32) (h : message.isInsert = false) :
    (table.handle message).1.rowsOf pid = message.change (table.rowsOf pid) ∧
      (table.handle message).1.next = table.next ∧ (table.handle message).2 = none := by
  cases message with
  | insertItem => cases h
  | updateItemNum iid num =>
      exact ⟨filter_change (.updateItemNum iid num), rfl, rfl⟩
  | updateItemInfo iid info => exact ⟨filter_change (.updateItemInfo iid info), rfl, rfl⟩
  | trashItem iid => exact ⟨filter_change (.trashItem iid), rfl, rfl⟩

theorem rowsOf_insertRow (info : ItemInfo) :
    (table.insertRow pid info).rowsOf pid = info.row pid table.next :: table.rowsOf pid :=
  List.filter_cons_of_pos (decide_eq_true rfl)

/-- The DB server may handle the next message, or it may stay in flight. -/
theorem settled_handle (h : ∀ m ∈ message :: messages, m.Sent pid table.next) :
    (settled messages ((table.handle message).1.rowsOf pid)).Perm
      (settled (message :: messages) (table.rowsOf pid)) := by
  obtain ⟨hmessage, hmessages⟩ := List.forall_mem_cons.1 h
  unfold settled
  cases message with
  | insertItem info idplayer id localId =>
      obtain rfl : idplayer = pid := hmessage
      by_cases hfits : info.Fits
      · -- the new row is the first of the rows, and its content was the first of those in flight
        have hcreated : (S2D.insertItem info idplayer id localId).created = some info.content :=
          if_pos hfits
        rw [handle_insertItem hfits, rowsOf_insertRow, changes_fresh hmessages,
          List.filterMap_cons_some hcreated]
        exact List.perm_middle.symm
      · have hcreated : (S2D.insertItem info idplayer id localId).created = none := if_neg hfits
        rw [handle_insertItem_of_not_fits hfits, List.filterMap_cons_none hcreated]
        exact List.Perm.refl _
  | updateItemNum | updateItemInfo | trashItem =>
      rw [(table.handle_change pid rfl).1]
      exact List.Perm.refl _

/-- A message about another player's items leaves the player's rows as they are. -/
theorem rowsOf_handle_of_foreign (h : message.Foreign pid table.rows) :
    (table.handle message).1.rowsOf pid = table.rowsOf pid := by
  have hids : ∀ iid, (∀ row ∈ table.rows, row.iditem = iid → row.idplayer ≠ pid) →
      ∀ row ∈ table.rowsOf pid, row.iditem ≠ iid := by
    intro iid hforeign row hrow hid
    obtain ⟨hmem, hpid⟩ := List.mem_filter.1 hrow
    exact hforeign row hmem hid (of_decide_eq_true hpid)
  cases message with
  | insertItem info idplayer id localId =>
      by_cases hfits : info.Fits
      · rw [handle_insertItem hfits]
        have hpid : idplayer ≠ pid := h
        exact List.filter_cons_of_neg (by simp [ItemInfo.row, hpid])
      · rw [handle_insertItem_of_not_fits hfits]
  | updateItemNum iid | updateItemInfo iid =>
      rw [(table.handle_change pid rfl).1]
      exact updateKey_of_forall_ne (hids iid h)
  | trashItem iid =>
      rw [(table.handle_change pid rfl).1]
      exact eraseKey_of_forall_ne (hids iid h)

end ItemTable

end Bango.Items
