import Bango.Items.System
import Bango.Monsters.Monster

set_option autoImplicit false

/-! # Loot

What monsters drop, from the roll until it expires or a player picks it up. A handler or a pass over
the loots is one step. A loot is at the place of its number, and how each one has left the world is
noted, which the code does not keep. Where a loot lies is left out: pickups do not read it, and that
the maps follow the registry of the world is the subject of the registries of the world. -/

namespace Bango.Loots

open Bango.Items

/-! ## Rolls -/

/-- `LootInfo`. -/
structure LootInfo where
  index : UInt32
  chance : UInt32
  amount : UInt32
deriving DecidableEq, Repr

/-- `GroupInfo`. -/
structure GroupInfo where
  index : UInt32
  chance : UInt32
deriving DecidableEq, Repr

/-- `MonsterItemGroup`. -/
structure MonsterItemGroup where
  index : UInt32
  numberOfRolls : UInt32
deriving DecidableEq, Repr

/-- `Group::m_loots_map`, in the order of the chances. -/
abbrev Group : Type := List LootInfo

/-- `ItemGroup::m_groups_map`, in the order of the chances. -/
abbrev ItemGroup : Type := List GroupInfo

/-- `InitItem::DB()`, and where `Group::Find` and `ItemGroup::Find` look. -/
structure Tables where
  items : ItemDb
  groups : UInt32 → Option Group
  itemGroups : UInt32 → Option ItemGroup

/-- What the generator gives for one roll. -/
structure Roll where
  group : UInt32
  loot : UInt32
deriving DecidableEq, Repr

/-- `Group::RollLoot`. -/
def Group.rollLoot (group : Group) (draw : UInt32) : Option LootInfo :=
  group.find? (Monsters.between 1 1000 draw < ·.chance)

namespace Tables

variable (tables : Tables)

/-- `ItemGroup::RollGroup`. -/
def rollGroup (itemGroup : ItemGroup) (draw : UInt32) : Option Group :=
  match itemGroup.find? (Monsters.between 1 1000 draw < ·.chance) with
  | none => none
  | some info => tables.groups info.index

/-- The rolls for one item group of a monster. -/
def rollMany (itemGroup : ItemGroup) : Nat → List Roll → List LootInfo
  | 0, _ => []
  | n + 1, draws =>
    let draw := draws.headD ⟨0, 0⟩
    let others := rollMany itemGroup n draws.tail
    match tables.rollGroup itemGroup draw.group with
    | none => others
    | some group => (group.rollLoot draw.loot).toList ++ others

/-- `loot_vec` of `Monster::RollLoot`, for the item groups of a monster. -/
def rollAll : List MonsterItemGroup → List Roll → List LootInfo
  | [], _ => []
  | group :: groups, draws =>
    match tables.itemGroups group.index with
    | none => rollAll groups draws
    | some itemGroup =>
      tables.rollMany itemGroup group.numberOfRolls.toNat draws ++
        rollAll groups (draws.drop group.numberOfRolls.toNat)

end Tables

/-! ## State -/

/-- `Loot`. -/
structure Loot where
  id : UInt32
  itemInfo : ItemInfo
  appearTime : UInt64
deriving DecidableEq, Repr

/-- `DISAPPEAR_TIME`. -/
def disappearTime : UInt32 := 180000

/-- `Loot::Loot`, with the id that `Character::Character` takes. -/
def Loot.make (info : LootInfo) (id : UInt32) (now : UInt64) : Loot where
  id := id
  itemInfo := { index := info.index.toUInt16, num := info.amount }
  appearTime := now

/-- `IsExpired`. -/
def Loot.IsExpired (loot : Loot) (now : UInt64) : Prop :=
  now - loot.appearTime ≥ disappearTime.toUInt64

instance (loot : Loot) (now : UInt64) : Decidable (loot.IsExpired now) :=
  inferInstanceAs (Decidable (_ ≥ _))

/-- How a loot leaves the world. A pickup is noted with how much of its item the player had before and
    has after it. -/
inductive Way where
  | expired
  | pickedUp (player : Nat) (before after : Nat)
deriving DecidableEq, Repr

structure Leaving where
  loot : Nat
  way : Way
deriving DecidableEq, Repr

structure System where
  /-- `g_max_id` of `Character::AssignNewId` -/
  nextId : UInt32
  /-- How many loots have been added to the world. -/
  made : Nat
  loots : Nat → Loot
  /-- `m_loots` -/
  registered : UInt32 → Option Nat
  players : Nat → Player
  /-- What the inventories share, with the player whose handler has run last. -/
  items : Items.System
  /-- The loots that have left the world, the latest first. -/
  left : List Leaving

/-- How much of an index there is among items. -/
def quantity (items : List Item) (index : UInt16) : Nat :=
  ((items.filter (·.info.index = index)).map (·.info.num.toNat)).sum

namespace System

/-- Players with any inventories, before anything has been dropped. -/
def start (players : Nat → Player) (items : Items.System) (nextId : UInt32) : System where
  nextId := nextId
  made := 0
  loots _ := .make ⟨0, 0, 0⟩ 0 0
  registered _ := none
  players := players
  items := items
  left := []

variable (s : System)

/-- `World::Add` of a new loot, and whether it comes to its end: "loot already present in world". -/
def addLoot (info : LootInfo) (now : UInt64) : System × Bool :=
  let id := s.nextId
  let s := { s with nextId := s.nextId + 1 }
  if s.registered id = none then
    ({ s with
      made := s.made + 1
      loots := Function.update s.loots s.made (.make info id now)
      registered := Function.update s.registered id (some s.made) }, true)
  else (s, false)

/-- The second loop of `RollLoot`, which what `World::Add` throws ends. The clock is read for each
    loot. -/
def addLoots (s : System) (now : Nat → UInt64) : List LootInfo → System
  | [] => s
  | info :: infos =>
    match s.addLoot info (now s.made) with
    | (s, true) => s.addLoots now infos
    | (s, false) => s

/-- `Monster::RollLoot`. -/
def rollLoot (tables : Tables) (itemGroups : List MonsterItemGroup) (draws : List Roll)
    (now : Nat → UInt64) : System :=
  s.addLoots now (tables.rollAll itemGroups draws)

/-- `World::Remove`, or what `RemoveExpiredLoot` does to an expired loot. -/
def remove (place : Nat) (way : Way) : System :=
  { s with
    registered := Function.update s.registered (s.loots place).id none
    left := ⟨place, way⟩ :: s.left }

/-- `RemoveExpiredLoot`, for one of the loots. -/
def removeIfExpired (now : Nat → UInt64) (place : Nat) : System :=
  if s.registered (s.loots place).id = some place ∧ (s.loots place).IsExpired (now place) then
    s.remove place .expired
  else s

/-- `RemoveExpiredLoot`. The clock is read for each loot. -/
def removeExpiredLoot (now : Nat → UInt64) : System :=
  (List.range s.made).foldl (removeIfExpired · now) s

/-- What the inventories share, with a player whose handler runs. -/
def itemsOf (player : Nat) : Items.System := { s.items with player := s.players player }

/-- What a handler has done to the items of a player. -/
def withItems (player : Nat) (items : Items.System) : System :=
  { s with items, players := Function.update s.players player items.player }

/-- `Player::OnPickUpItem`. -/
def onPickUpItem (tables : Tables) (player : Nat) (id : UInt32) (met : Nat) :
    Except Fault System :=
  match s.registered id with
  | none => .ok s
  | some place =>
    let info := (s.loots place).itemInfo
    match (s.itemsOf player).insertItem tables.items met info.index info.num with
    | .error fault => .error fault
    | .ok items =>
      .ok ((s.withItems player items).remove place
        (.pickedUp player (quantity (s.players player).inventory.items info.index)
          (quantity items.player.inventory.items info.index)))

end System

/-! ## Runs -/

/-- What happens next. -/
inductive Event where
  | rollLoot (itemGroups : List MonsterItemGroup) (draws : List Roll) (now : Nat → UInt64)
  | onPickUpItem (player : Nat) (id : UInt32) (met : Nat)
  | removeExpiredLoot (now : Nat → UInt64)
  /-- Other characters are made. -/
  | assignNewIds (n : UInt32)

/-- One step. -/
def System.step (tables : Tables) (s : System) : Event → Except Fault System
  | .rollLoot itemGroups draws now => .ok (s.rollLoot tables itemGroups draws now)
  | .onPickUpItem player id met => s.onPickUpItem tables player id met
  | .removeExpiredLoot now => .ok (s.removeExpiredLoot now)
  | .assignNewIds n => .ok { s with nextId := s.nextId + n }

end Bango.Loots
