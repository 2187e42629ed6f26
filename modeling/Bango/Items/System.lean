import Bango.Items.Inventory
import Bango.Lib.Runs

set_option autoImplicit false

/-! # A player's items and their rows

The game server keeps a player's items in memory and tells the DB server about each change; the DB
server gives a new item the id of its row and writes it back. The messages travel over one link each
way, in order. A step is one of the player's item operations, the DB server handling the next message
(or one about another player's items), or the game server handling the next reply. -/

namespace Bango.Items

open Bango.Lib

/-! ## The table -/

/-- A row of the table `item`, whose other columns stay 0. A column of type `INT` holds the 32 bits
    that `query::set(int)` passes on. -/
structure Row where
  iditem : Nat
  idplayer : Int32
  index : UInt16
  num : UInt32
  info : UInt32
  curEnd : UInt8
deriving DecidableEq, Repr

/-- The rows, and the next `AUTO_INCREMENT` value. -/
structure ItemTable where
  rows : List Row
  next : Nat
  keyed : Keyed Row.iditem rows
  positive : ∀ row ∈ rows, 0 < row.iditem
  bounded : ∀ row ∈ rows, row.iditem < next
  next_pos : 0 < next

/-- Do the values fit into their columns, a `SMALLINT` and a `TINYINT`? -/
def ItemInfo.Fits (info : ItemInfo) : Prop := info.index < 32768 ∧ info.curEnd < 128

instance (info : ItemInfo) : Decidable info.Fits := inferInstanceAs (Decidable (_ ∧ _))

/-- The row of an item. -/
def ItemInfo.row (info : ItemInfo) (idplayer : Int32) (iditem : Nat) : Row where
  iditem := iditem
  idplayer := idplayer
  index := info.index
  num := info.num
  info := info.info
  curEnd := info.curEnd

namespace ItemTable

variable (table : ItemTable)

/-- `INSERT INTO item`. The ids are taken not to run out: `iditem` is an `INT`. -/
def insertRow (idplayer : Int32) (info : ItemInfo) : ItemTable where
  rows := info.row idplayer table.next :: table.rows
  next := table.next + 1
  keyed := keyed_cons.2 ⟨fun row hrow => Nat.ne_of_lt (table.bounded row hrow), table.keyed⟩
  positive := List.forall_mem_cons.2 ⟨table.next_pos, table.positive⟩
  bounded := List.forall_mem_cons.2
    ⟨Nat.lt_succ_self _, fun row hrow => Nat.lt_succ_of_lt (table.bounded row hrow)⟩
  next_pos := Nat.succ_pos _

/-- `UPDATE item SET … WHERE iditem=?`. -/
def updateRow (iditem : Nat) (f : Row → Row) (hf : ∀ row, (f row).iditem = row.iditem) :
    ItemTable where
  rows := updateKey Row.iditem iditem f table.rows
  next := table.next
  keyed := table.keyed.updateKey hf
  positive := forall_mem_updateKey table.positive fun row hrow => hf row ▸ hrow
  bounded := forall_mem_updateKey table.bounded fun row hrow => hf row ▸ hrow
  next_pos := table.next_pos

/-- `DELETE FROM item WHERE iditem=?`. -/
def deleteRow (iditem : Nat) : ItemTable where
  rows := eraseKey Row.iditem iditem table.rows
  next := table.next
  keyed := table.keyed.eraseKey iditem
  positive row hrow := table.positive row (mem_eraseKey.1 hrow).1
  bounded row hrow := table.bounded row (mem_eraseKey.1 hrow).1
  next_pos := table.next_pos

end ItemTable

/-- The item of a row. -/
def Row.itemInfo (row : Row) : ItemInfo where
  index := row.index
  iid := row.iditem
  info := row.info
  num := row.num
  curEnd := row.curEnd

/-- `DatabaseManager::LoadItems`, for as many items as fit into a packet. -/
def ItemTable.loadItems (table : ItemTable) (idplayer : Int32) : List ItemInfo :=
  (table.rows.filter (·.idplayer = idplayer)).map Row.itemInfo

/-! ## Messages -/

/-- What the game server writes to the DB server. -/
inductive S2D where
  | insertItem (info : ItemInfo) (idplayer : Int32) (id : UInt32) (localId : UInt32)
  | updateItemNum (iid : Nat) (num : UInt32)
  | updateItemInfo (iid : Nat) (info : UInt32)
  | trashItem (iid : Nat)
deriving DecidableEq, Repr

/-- `D2S_UPDATEITEMIID`. -/
structure UpdateItemIid where
  id : UInt32
  localId : UInt32
  iid : Nat
deriving DecidableEq, Repr

/-- `DatabaseManager::InsertItem`, `UpdateItemNum`, `UpdateItemInfo` and `TrashItem`: the table and
    the reply. The strict mode of the database refuses a row that does not fit, and the exception
    ends the handler. -/
def ItemTable.handle (table : ItemTable) : S2D → ItemTable × Option UpdateItemIid
  | .insertItem info idplayer id localId =>
    if info.Fits then (table.insertRow idplayer info, some ⟨id, localId, table.next⟩)
    else (table, none)
  | .updateItemNum iid num => (table.updateRow iid ({ · with num }) fun _ => rfl, none)
  | .updateItemInfo iid info => (table.updateRow iid ({ · with info }) fun _ => rfl, none)
  | .trashItem iid => (table.deleteRow iid, none)

/-! ## The system -/

structure Player where
  pid : Int32
  uid : UInt32
  /-- `GetClass()` -/
  playerClass : UInt8
  level : UInt8
  inventory : Inventory

structure System where
  player : Player
  /-- `g_max_local_id` -/
  maxLocalId : UInt32
  toDb : List S2D
  toGame : List UpdateItemIid
  table : ItemTable

namespace System

variable (s : System)

/-- `Socket::DBClient().write`. -/
def write (message : S2D) : System := { s with toDb := s.toDb ++ [message] }

/-- Another state of the inventory. -/
def withInventory (inventory : Inventory) : System :=
  { s with player := { s.player with inventory } }

/-- `Inventory::Insert`, where the constructor of `Item` takes the next local id. -/
def insert (db : ItemDb) (info : ItemInfo) : Except Fault (System × Option Item) :=
  let maxLocalId := if (db info.index).isSome then s.maxLocalId + 1 else s.maxLocalId
  match s.player.inventory.insert db maxLocalId info with
  | .error fault => .error fault
  | .ok (inventory, item) => .ok ({ s.withInventory inventory with maxLocalId }, item)

/-- `Player::OnLoadItems`. -/
def onLoadItems (db : ItemDb) : List ItemInfo → System → Except Fault System
  | [], s => .ok s
  | info :: rest, s =>
    match s.insert db info with
    | .error fault => .error fault
    | .ok (s, _) => onLoadItems db rest s

/-- The part of `Player::InsertItem` that creates an item. -/
def createItem (db : ItemDb) (index : UInt16) (num : UInt32) : Except Fault System :=
  match db index with
  | none => .ok s
  | some init =>
    let info : ItemInfo :=
      { index, curEnd := init.endurance, num := if init.plural then num else 1 }
    match s.insert db info with
    | .error fault => .error fault
    | .ok (_, none) => .error .nullPointer
    | .ok (s, some item) =>
      .ok (s.write (.insertItem item.info s.player.pid s.player.uid item.localId))

/-- `Player::InsertItem`. -/
def insertItem (db : ItemDb) (met : Nat) (index : UInt16) (num : UInt32) : Except Fault System :=
  match s.player.inventory.findByIndex met index with
  | none => s.createItem db index num
  | some item =>
    if item.init.plural then
      let num := item.info.num + num
      .ok ((s.withInventory
        (s.player.inventory.modify item.localId (·.updateNum num) fun _ => rfl)).write
          (.updateItemNum item.info.iid num))
    else s.createItem db index num

/-- `Player::TrashItem`. -/
def trashItem (localId : UInt32) : System :=
  match s.player.inventory.trash localId with
  | none => s
  | some inventory =>
    (s.withInventory inventory).write (.trashItem (s.player.inventory.getIid localId))

/-- The checks of `Player::OnPutOnItem`, the last of which is `Inventory::PutOn`. -/
def tryPutOn (localId : UInt32) : Option (Item × Inventory) :=
  match s.player.inventory.findByLocalId localId with
  | none => none
  | some item =>
    if item.init.limitClass ≠ pcAll ∧ item.init.limitClass ≠ s.player.playerClass then none
    else if item.init.limitLevel > s.player.level then none
    else s.player.inventory.putOn localId

/-- `Player::OnPutOnItem`. -/
def onPutOnItem (localId : UInt32) : System :=
  match s.tryPutOn localId with
  | none => s
  | some (item, inventory) =>
    (s.withInventory inventory).write (.updateItemInfo item.info.iid item.info.info)

/-- `Player::OnPutOffItem`. -/
def onPutOffItem (localId : UInt32) : Except Fault System :=
  match s.player.inventory.putOff localId with
  | .error fault => .error fault
  | .ok none => .ok s
  | .ok (some (item, inventory)) =>
    .ok ((s.withInventory inventory).write (.updateItemInfo item.info.iid item.info.info))

/-- `DBListener::OnUpdateItemIID`, for the session that it finds by its id. -/
def onUpdateItemIid (reply : UpdateItemIid) : System :=
  if s.player.uid = reply.id then
    s.withInventory (s.player.inventory.updateItemIid reply.localId reply.iid)
  else s

end System

/-! ## Steps -/

inductive Op where
  /-- `/get`, or an item is picked up -/
  | insertItem (met : Nat) (index : UInt16) (num : UInt32)
  | trashItem (localId : UInt32)
  | putOn (localId : UInt32)
  | putOff (localId : UInt32)
  /-- the player's level changes -/
  | level (level : UInt8)
  /-- another player's inventory creates an item -/
  | otherItem
  /-- the DB server handles the next message -/
  | database
  /-- the DB server handles a message about another player's items -/
  | otherMessage (message : S2D)
  /-- the game server handles the next reply -/
  | deliver
deriving DecidableEq, Repr

/-- Does the message leave a player's rows alone? -/
def S2D.Foreign (pid : Int32) (rows : List Row) : S2D → Prop
  | insertItem _ idplayer _ _ => idplayer ≠ pid
  | updateItemNum iid _ | updateItemInfo iid _ | trashItem iid =>
    ∀ row ∈ rows, row.iditem = iid → row.idplayer ≠ pid

instance (pid : Int32) (rows : List Row) (message : S2D) : Decidable (message.Foreign pid rows) :=
  match message with
  | .insertItem .. => inferInstanceAs (Decidable (_ ≠ _))
  | .updateItemNum .. | .updateItemInfo .. | .trashItem _ =>
    inferInstanceAs (Decidable (∀ _ ∈ _, _))

/-- Why there is no next state. -/
inductive Stop where
  | idle
  | fault (fault : Fault)
deriving DecidableEq, Repr

def System.step (db : ItemDb) (s : System) : Op → Except Stop System
  | .insertItem met index num => (s.insertItem db met index num).mapError .fault
  | .trashItem localId => .ok (s.trashItem localId)
  | .putOn localId => .ok (s.onPutOnItem localId)
  | .putOff localId => (s.onPutOffItem localId).mapError .fault
  | .level level => .ok { s with player := { s.player with level } }
  | .otherItem => .ok { s with maxLocalId := s.maxLocalId + 1 }
  | .database =>
    match s.toDb with
    | [] => .error .idle
    | message :: rest =>
      let (table, reply) := s.table.handle message
      .ok { s with table, toDb := rest, toGame := s.toGame ++ reply.toList }
  | .otherMessage message =>
    if message.Foreign s.player.pid s.table.rows then
      .ok { s with table := (s.table.handle message).1 }
    else .error .idle
  | .deliver =>
    match s.toGame with
    | [] => .error .idle
    | reply :: rest => .ok ({ s with toGame := rest }.onUpdateItemIid reply)

end Bango.Items
