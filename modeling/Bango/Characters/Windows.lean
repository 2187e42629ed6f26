import Bango.Characters.Saving
import Bango.Items.Equipment
import Bango.Lib.Mirror

set_option autoImplicit false

/-! # What the client is told about its player

The client shows the properties, the skills and the items of its player. It is told all of them when the
player has been loaded, and afterwards each handler tells what it has changed. A hit is told to the
client by other packets, so that the current HP and MP are carried along here and no more. -/

namespace Bango.Characters

open Bango.Lib
open Bango.Items (FullInventory Item ItemDb SpecialtyDb Counter pcAll itemPutOn)

/-- A player with its skills and its inventory. -/
structure Equipped where
  skilled : Skilled
  inventory : FullInventory

namespace Equipped

variable (s : Equipped)

def data : PlayerInfo := s.skilled.player.data

/-- What the items that are put on add to a property. -/
def added (counter : Counter) : UInt16 := s.inventory.counters counter

/-- The same player with another level. -/
def atLevel (level : UInt8) : Equipped :=
  { s with skilled := s.skilled.withData { s.data with level } }

/-! ## Properties -/

/-- `GetStrength`. -/
def getStrength : UInt16 := s.data.strength + s.added .str

/-- `GetHealth`. -/
def getHealth : UInt16 := s.data.health + s.added .hth

/-- `GetInteligence`. -/
def getInteligence : UInt16 := s.data.inteligence + s.added .int

/-- `GetWisdom`. -/
def getWisdom : UInt16 := s.data.wisdom + s.added .wis

/-- `GetDexterity`. -/
def getDexterity : UInt16 := s.data.dexterity + s.added .dex

/-- `GetMinAttack`; the divisions of `int` round towards zero. -/
def getMinAttack : UInt16 :=
  .ofInt (1 + (11 * (s.getStrength.toNat : Int) - 80).tdiv 30 +
    ((s.getDexterity.toNat : Int) - 5).tdiv 11 + (7 * s.data.level.toNat / 10 : Nat)) +
    s.added .minAttack

/-- `GetMaxAttack`. -/
def getMaxAttack : UInt16 :=
  .ofInt ((8 * (s.getStrength.toNat : Int) - 25).tdiv 15 +
    (18 * s.getDexterity.toNat / 77 + s.data.level.toNat : Nat)) + s.added .maxAttack

/-- `GetMinMagic`. -/
def getMinMagic : UInt16 :=
  .ofInt ((7 * (s.getInteligence.toNat : Int) - 20).tdiv 12 + (s.getWisdom.toNat / 7 : Nat)) +
    s.added .minMagic

/-- `GetMaxMagic`. -/
def getMaxMagic : UInt16 :=
  .ofNat (7 * s.getInteligence.toNat / 12 + 14 * s.getWisdom.toNat / 45) + s.added .maxMagic

/-- `GetHit`. -/
def getHit : UInt16 :=
  .ofInt ((s.getDexterity.toNat / 8 + 15 * s.getStrength.toNat / 54 : Nat) + s.skilled.nHit.toInt) +
    s.added .hit

/-- `GetDodge`. -/
def getDodge : UInt16 := .ofNat (s.getDexterity.toNat / 3) + s.added .dodge

/-- `GetAbsorb`. -/
def getAbsorb : UInt16 := s.added .absorb

/-- `GetDefense`. -/
def getDefense : UInt16 := s.added .defense

/-- `GetResist` for `RT_FIRE`, `RT_ICE` and `RT_LITNING`, by the counter of the inventory. -/
def getResistInt (counter : Counter) : UInt16 :=
  .ofNat (s.getInteligence.toNat / 9) + s.added counter

/-- `GetResist(RT_PALSY)`. -/
def getResistPalsy : UInt16 := .ofNat (s.getHealth.toNat / 9) + s.added .palsy

/-- `GetResist(RT_CURSE)`. -/
def getResistCurse : UInt16 := .ofNat (s.getWisdom.toNat / 9) + s.added .curse

/-- `GetAttackSpeed`. -/
def getAttackSpeed : UInt16 := s.inventory.attackSpeed

/-- What `GetMaxHP` and `GetMaxMP` read of the inventory. -/
def inventoryProperty : InventoryProperty := ⟨s.added .hth, s.added .wis, s.added .hp, s.added .mp⟩

/-- `GetMaxHP`. -/
def getMaxHp : Except Fault UInt32 := s.skilled.player.getMaxHp s.inventoryProperty

/-- `GetMaxMP`. -/
def getMaxMp : Except Fault UInt32 := s.skilled.player.getMaxMp s.inventoryProperty

/-- A number that the client shows. -/
inductive Field where
  | job | contribute
  | strength | health | inteligence | wisdom | dexterity
  | strengthAdd | healthAdd | inteligenceAdd | wisdomAdd | dexterityAdd
  | curHp | maxHp | curMp | maxMp
  | hit | dodge | defense | absorb
  | minAttack | maxAttack | minMagic | maxMagic
  | fire | ice | litning | curse | palsy
  | puPoint | suPoint | rage | exp | level | attackSpeed
deriving DecidableEq, Repr

/-- The number, in the size in which `S2C_UPDATEPROPERTY` has it. -/
def value : Field → Except Fault UInt64
  | .job => .ok s.data.job.toUInt64
  | .contribute => .ok s.data.contribute.toUInt64
  | .strength => .ok s.data.strength.toUInt64
  | .health => .ok s.data.health.toUInt64
  | .inteligence => .ok s.data.inteligence.toUInt64
  | .wisdom => .ok s.data.wisdom.toUInt64
  | .dexterity => .ok s.data.dexterity.toUInt64
  | .strengthAdd => .ok (s.getStrength - s.data.strength).toUInt64
  | .healthAdd => .ok (s.getHealth - s.data.health).toUInt64
  | .inteligenceAdd => .ok (s.getInteligence - s.data.inteligence).toUInt64
  | .wisdomAdd => .ok (s.getWisdom - s.data.wisdom).toUInt64
  | .dexterityAdd => .ok (s.getDexterity - s.data.dexterity).toUInt64
  | .curHp => .ok s.skilled.player.curHp.toUInt64
  | .maxHp => s.getMaxHp.map (·.toUInt64)
  | .curMp => .ok s.skilled.player.curMp.toUInt16.toUInt64
  | .maxMp => s.getMaxMp.map (·.toUInt16.toUInt64)
  | .hit => .ok s.getHit.toUInt64
  | .dodge => .ok s.getDodge.toUInt64
  | .defense => .ok s.getDefense.toUInt64
  | .absorb => .ok s.getAbsorb.toUInt64
  | .minAttack => .ok s.getMinAttack.toUInt64
  | .maxAttack => .ok s.getMaxAttack.toUInt64
  | .minMagic => .ok s.getMinMagic.toUInt64
  | .maxMagic => .ok s.getMaxMagic.toUInt64
  | .fire => .ok (s.getResistInt .fire).toUInt64
  | .ice => .ok (s.getResistInt .ice).toUInt64
  | .litning => .ok (s.getResistInt .litning).toUInt64
  | .curse => .ok s.getResistCurse.toUInt64
  | .palsy => .ok s.getResistPalsy.toUInt64
  | .puPoint => .ok s.data.puPoint.toUInt64
  | .suPoint => .ok s.data.suPoint.toUInt64
  | .rage => .ok s.data.rage.toUInt64
  | .exp => .ok s.data.exp
  | .level => .ok s.data.level.toUInt64
  | .attackSpeed => .ok s.getAttackSpeed.toUInt64

/-- The values of some fields, as a packet has them. -/
def values (fields : List Field) : Except Fault (List (Field × UInt64)) :=
  fields.mapM fun field => (s.value field).map (field, ·)

/-! ## Packets -/

/-- The kinds of `SendProperty`. -/
inductive Property where
  | str | hth | int | wis | dex | strAdd | hthAdd | intAdd | wisAdd | dexAdd
  | absorb | defense | hit | dodge | puPoint | suPoint | level | aspeed | exp
deriving DecidableEq, Repr

/-- The values that `SendProperty` writes behind the kind, the amount of `P_EXP` apart. -/
def Property.fields : Property → List Field
  | str => [.strength, .hit, .minAttack, .maxAttack]
  | hth => [.health, .curHp, .maxHp, .palsy]
  | int => [.inteligence, .minMagic, .maxMagic, .fire, .ice, .litning]
  | wis => [.wisdom, .curMp, .maxMp, .minMagic, .maxMagic, .curse]
  | dex => [.dexterity, .hit, .dodge, .dodge, .minAttack, .maxAttack]
  | strAdd => [.strengthAdd, .hit, .minAttack, .maxAttack]
  | hthAdd => [.healthAdd, .curHp, .maxHp, .palsy]
  | intAdd => [.inteligenceAdd, .minMagic, .maxMagic, .fire, .ice, .litning]
  | wisAdd => [.wisdomAdd, .curMp, .maxMp, .minMagic, .maxMagic, .curse]
  | dexAdd => [.dexterityAdd, .hit, .dodge, .dodge, .minAttack, .maxAttack]
  | absorb => [.absorb]
  | defense => [.defense, .defense]
  | hit => [.hit]
  | dodge => [.dodge, .dodge]
  | puPoint => [.puPoint]
  | suPoint => [.suPoint]
  | level => [.level]
  | aspeed => [.attackSpeed]
  | exp => [.exp]

/-- `SendProperty`, for several kinds one after the other. -/
def sendProperties (kinds : List Property) : Except Fault (List (Field × UInt64)) :=
  s.values (kinds.flatMap Property.fields)

/-- The kinds of `SendInventoryProperty`. -/
def inventoryKinds : List Property :=
  [.strAdd, .hthAdd, .intAdd, .wisAdd, .dexAdd, .absorb, .defense, .aspeed]

/-- The kinds that `OnUpdateProperty` sends. -/
def distributedKinds : List Property := [.str, .hth, .int, .wis, .dex, .puPoint]

/-- The values of `S2C_PROPERTY`, the constant ones for the guild apart. -/
def loadedFields : List Field :=
  [.job, .contribute, .strength, .health, .inteligence, .wisdom, .dexterity, .curHp, .maxHp, .curMp,
    .maxMp, .hit, .dodge, .defense, .absorb, .exp, .minAttack, .maxAttack, .minMagic, .maxMagic,
    .puPoint, .suPoint, .fire, .ice, .litning, .curse, .palsy, .rage]

/-- The values that `S2C_PROPERTY` has as bytes. -/
def byteFields : List Field := [.job, .absorb, .fire, .ice, .litning, .curse, .palsy]

/-- `S2C_PROPERTY`. -/
def loadedProperty : Except Fault (List (Field × UInt64)) :=
  (s.values loadedFields).map fun values => values.map fun (field, v) =>
    (field, if field ∈ byteFields then v.toUInt8.toUInt64 else v)

end Equipped

/-- An item in a packet, as far as the client lists it here. The other values (`Prefix`, `XAttack`,
    `FuseInfo`, `Shot` and so on) are loaded from the table `item`, and no handler changes them. -/
structure ShownItem where
  index : UInt16
  localId : UInt32
  info : UInt32
  num : UInt32
  endurance : UInt8
  curEnd : UInt8
deriving DecidableEq, Repr

/-- `Item::operator packet`. -/
def ShownItem.of (item : Item) : ShownItem where
  index := item.info.index
  localId := item.localId
  info := item.info.info
  num := item.info.num
  endurance := item.init.endurance
  curEnd := item.info.curEnd

/-- The last byte of `S2C_UPDATEITEMNUM`, as far as it is used. -/
inductive Reason where
  /-- `TL_CREATE` -/
  | create
  /-- `TL_DELETE` -/
  | delete
deriving DecidableEq, Repr

/-- What the game server writes to the client about its player. -/
inductive S2C where
  /-- `S2C_PROPERTY` or `S2C_UPDATEPROPERTY` -/
  | property (values : List (Equipped.Field × UInt64))
  | skillInfo (skills : List (UInt8 × UInt8))
  | skillUp (index level : UInt8)
  | itemInfo (items : List ShownItem)
  | insertItem (item : ShownItem)
  | updateItemNum (localId num : UInt32) (reason : Reason)
  /-- to all in sight -/
  | putOnItem (localId : UInt32)
  | putOffItem (localId : UInt32)
deriving DecidableEq, Repr

/-! ## The client -/

/-- What the client shows of its player, as the packets tell it. -/
structure Windows where
  properties : Equipped.Field → Option UInt64
  /-- the grade of each skill -/
  skills : UInt8 → Option UInt8
  /-- the items by local id -/
  items : UInt32 → Option ShownItem

namespace Windows

/-- Nothing has been told yet. -/
def blank : Windows := ⟨fun _ => none, fun _ => none, fun _ => none⟩

variable (w : Windows)

/-- An item changes. -/
def modifyItem (localId : UInt32) (f : ShownItem → ShownItem) : Windows :=
  { w with items := Function.update w.items localId ((w.items localId).map f) }

def receive : S2C → Windows
  | .property values => { w with properties := mirror w.properties values }
  | .skillInfo skills => { w with skills := mirror w.skills skills }
  | .skillUp index level => { w with skills := Function.update w.skills index (some level) }
  | .itemInfo items => { w with items := fun localId => findKey ShownItem.localId localId items }
  | .insertItem item => { w with items := Function.update w.items item.localId (some item) }
  | .updateItemNum localId num .create => w.modifyItem localId ({ · with num })
  | .updateItemNum localId _ .delete => { w with items := Function.update w.items localId none }
  | .putOnItem localId =>
    w.modifyItem localId fun item => { item with info := item.info ||| itemPutOn }
  | .putOffItem localId =>
    w.modifyItem localId fun item => { item with info := item.info &&& ~~~itemPutOn }

end Windows

/-! ## Handlers -/

namespace Equipped

/-- How a handler ends early. -/
inductive Stop where
  | character (fault : Fault)
  | item (fault : Items.Fault)
deriving DecidableEq, Repr

variable (skills : SkillDb) (specialty : SpecialtyDb) (db : ItemDb) (s : Equipped)

/-- `OnLoadFinish`. -/
def onLoadFinish : Except Fault (List S2C) := do
  let property ← s.loadedProperty
  let added ← s.sendProperties inventoryKinds
  return [.property property, .itemInfo (s.inventory.items.map ShownItem.of), .property added]

/-- What `WriteInSight` writes to the player itself: the packet, when the quadtree of its map finds the
    player, as it does inside the map. -/
def writeInSight (found : Bool) (packet : S2C) : List S2C := if found then [packet] else []

/-- The inventory with what has been written about it, and what it tells afterwards. -/
def sendInventoryProperty (inventory : FullInventory) (written : List S2C) :
    Except Stop (Equipped × List S2C) :=
  let s := { s with inventory }
  match s.sendProperties inventoryKinds with
  | .error fault => .error (.character fault)
  | .ok values => .ok (s, written ++ [.property values])

/-- The checks of `OnPutOnItem`. -/
def MayPutOn (item : Item) : Prop :=
  (item.init.limitClass = pcAll ∨ item.init.limitClass = s.data.playerClass) ∧
    item.init.limitLevel ≤ s.data.level

instance (item : Item) : Decidable (s.MayPutOn item) := inferInstanceAs (Decidable (_ ∧ _))

/-- `OnPutOnItem`. -/
def onPutOnItem (localId : UInt32) (found : Bool) : Except Stop (Equipped × List S2C) :=
  match s.inventory.findByLocalId localId with
  | none => .ok (s, [])
  | some item =>
    if s.MayPutOn item then
      match s.inventory.putOn specialty localId with
      | (_, none) => .ok (s, [])
      | (inventory, some item) =>
        s.sendInventoryProperty inventory (writeInSight found (.putOnItem item.localId))
    else .ok (s, [])

/-- `OnPutOffItem`. -/
def onPutOffItem (localId : UInt32) (found : Bool) : Except Stop (Equipped × List S2C) :=
  match s.inventory.putOff specialty localId with
  | .error fault => .error (.item fault)
  | .ok (_, none) => .ok (s, [])
  | .ok (inventory, some item) =>
    s.sendInventoryProperty inventory (writeInSight found (.putOffItem item.localId))

/-- `FindByIndex`. Of several items with the index, `met` says which one is met first. -/
def findByIndex (met : Nat) (index : UInt16) : Option Item :=
  let found := s.inventory.items.filter (·.info.index = index)
  found[met % found.length]?

/-- The part of `InsertItem` that creates an item, with the next local id. -/
def createItem (localId : UInt32) (index : UInt16) (num : UInt32) :
    Except Stop (Equipped × List S2C) :=
  match db index with
  | none => .ok (s, [])
  | some init =>
    let info : Items.ItemInfo :=
      { index, curEnd := init.endurance, num := if init.plural then num else 1 }
    match s.inventory.insert specialty db localId info with
    | .error fault => .error (.item fault)
    | .ok (_, none) => .error (.item .nullPointer)
    | .ok (inventory, some item) => .ok ({ s with inventory }, [.insertItem (.of item)])

/-- `InsertItem`. -/
def insertItem (localId : UInt32) (met : Nat) (index : UInt16) (num : UInt32) :
    Except Stop (Equipped × List S2C) :=
  match s.findByIndex met index with
  | none => s.createItem specialty db localId index num
  | some item =>
    if item.init.plural then
      let num := item.info.num + num
      let inventory :=
        s.inventory.modify item.localId (·.updateNum num) (Item.localId_updateNum num)
      .ok ({ s with inventory }, [.updateItemNum item.localId num .create])
    else s.createItem specialty db localId index num

/-- `TrashItem`. -/
def trashItem (localId : UInt32) : Equipped × List S2C :=
  match s.inventory.trash localId with
  | (_, false) => (s, [])
  | (inventory, true) => ({ s with inventory }, [.updateItemNum localId 0 .delete])

/-- `Inventory::UpdateItemIID`. -/
def updateItemIid (localId : UInt32) (iid : Nat) : Equipped :=
  { s with
    inventory := s.inventory.modify localId (·.updateIid iid) (Item.localId_updateIid iid) }

/-- `OnUpdateProperty`. -/
def onUpdateProperty (stats : Vector UInt8 5) : Except Fault (Equipped × List S2C) := do
  match ← s.data.tryUpdateProperty stats with
  | none => return (s, [])
  | some data =>
    let s := { s with skilled := s.skilled.withData data }
    let values ← s.sendProperties distributedKinds
    return (s, [.property values])

/-- What `OnApply` sends: WeaponMastery changes `nHit`. -/
def applied (skill : Skill) : Except Fault (List S2C) :=
  match skill.type with
  | .weaponMastery => (s.sendProperties [.hit]).map fun values => [.property values]
  | .behead | .physicalSkill | .staggeringBlow | .skill => .ok []

/-- The loop of `OnLoadSkills`. It notes that a skill is missing and goes on with the null pointer. -/
def loadSkills : List (UInt8 × UInt8) → Equipped → Except Fault (Equipped × List S2C)
  | [], s => .ok (s, [])
  | (index, level) :: rest, s =>
    match s.skilled.add skills index level with
    | none => .error .cannotLoadSkill
    | some (skill, skilled) => do
      let s := { s with skilled := skilled.onApply skill 0 }
      let hit ← s.applied skill
      let (s, packets) ← loadSkills rest s
      return (s, hit ++ packets)

/-- `OnLoadSkills`. -/
def onLoadSkills (rows : List (UInt8 × UInt8)) : Except Fault (Equipped × List S2C) := do
  let (s, packets) ← loadSkills skills rows s
  let finish ← s.onLoadFinish
  return (s, packets ++ .skillInfo rows :: finish)

/-- `OnSkillUp`. -/
def onSkillUp (index : UInt8) : Except Fault (Equipped × List S2C) :=
  if s.skilled.canLearnSkill skills index then
    match s.skilled.getByIndex index with
    | none => .ok (s, [])
    | some skill => do
      let s := { s with skilled := s.skilled.onSkillUp skills index }
      let points ← s.sendProperties [.suPoint]
      let hit ← s.applied skill
      return (s, [.skillUp index (skill.level + 1), .property points] ++ hit)
  else .ok (s, [])

/-- `OnLearnSkill`. -/
def onLearnSkill (index : UInt8) : Except Fault (Equipped × List S2C) := do
  let skilled ← s.skilled.onLearnSkill skills index
  if s.skilled.canLearnSkill skills index ∧ s.skilled.getByIndex index = none then
    let s := { s with skilled }
    let points ← s.sendProperties [.suPoint]
    let hit ← (match skilled.getByIndex index with
      | none => .ok []
      | some skill => s.applied skill)
    return (s, [.skillUp index 1, .property points] ++ hit)
  else return ({ s with skilled }, [])

/-- What `LevelUp` sends to the client. `SaveAllProperty` has been written with the same values. -/
def levelUpShown : S2D → S2C
  | .saveAllProperty values =>
    .property [(.level, values.level.toUInt64), (.suPoint, values.suPoint.toUInt64),
      (.puPoint, values.puPoint.toUInt64)]
  | .updateProperty _ | .skillUp _ | .learnSkill _ | .loadPlayer .. => .property []

/-- `UpdateExp`. -/
def updateExp (amount : Int64) : Except Fault (Equipped × List S2C) := do
  let (player, messages) ← s.skilled.player.updateExpWriting s.inventoryProperty amount
  let exp := if amount = 0 ∨ (0 < amount ∧ maxLevel ≤ s.data.level) then []
    else [S2C.property [(.exp, player.data.exp)]]
  return ({ s with skilled := { s.skilled with player } }, messages.map levelUpShown ++ exp)

end Equipped

/-! ## Steps -/

/-- The player and what its client shows. -/
structure Watched where
  player : Equipped
  windows : Windows
  /-- For specifications: the level at which the client was last told the maximal HP. -/
  toldLevel : UInt8

/-- Does the packet tell the maximal HP? -/
def S2C.TellsMaxHp : S2C → Prop
  | .property values => .maxHp ∈ values.map Prod.fst
  | .skillInfo _ | .skillUp .. | .itemInfo _ | .insertItem _ | .updateItemNum .. | .putOnItem _
  | .putOffItem _ => False

instance : DecidablePred S2C.TellsMaxHp
  | .property _ => inferInstanceAs (Decidable (_ ∈ _))
  | .skillInfo _ | .skillUp .. | .itemInfo _ | .insertItem _ | .updateItemNum .. | .putOnItem _
  | .putOffItem _ => isFalse id

namespace Watched

/-- What is done with the player. -/
inductive Op where
  /-- `/get`, or an item is picked up; the next local id, and which item is met first -/
  | insertItem (localId : UInt32) (met : Nat) (index : UInt16) (num : UInt32)
  | trashItem (localId : UInt32)
  | updateItemIid (localId : UInt32) (iid : Nat)
  /-- and whether the quadtree finds the player -/
  | putOn (localId : UInt32) (found : Bool)
  | putOff (localId : UInt32) (found : Bool)
  | updateProperty (stats : Vector UInt8 5)
  | skillUp (index : UInt8)
  | learnSkill (index : UInt8)
  | updateExp (amount : Int64)
  /-- it moves, is teleported, is hit or is healed -/
  | live (x y z : Int32) (curHp curMp : UInt32)

/-- Does the quadtree find the player that puts something on or off? -/
def Op.Found : Op → Prop
  | .putOn _ found | .putOff _ found => found = true
  | .insertItem .. | .trashItem _ | .updateItemIid .. | .updateProperty _ | .skillUp _ | .learnSkill _
  | .updateExp _ | .live .. => True

/-- The packets come to the client. -/
def tell (w : Watched) (result : Equipped × List S2C) : Watched where
  player := result.1
  windows := result.2.foldl Windows.receive w.windows
  toldLevel := if ∃ packet ∈ result.2, packet.TellsMaxHp then result.1.data.level else w.toldLevel

variable (skills : SkillDb) (specialty : SpecialtyDb) (db : ItemDb)

/-- The rows of skills come last; before them the player has been loaded, with its items. It has no
    skill then, unless it has learned one in the meantime: `C2S_LEARNSKILL` needs no grant. -/
def start (player : Equipped) (rows : List (UInt8 × UInt8)) : Except Fault Watched :=
  (player.onLoadSkills skills rows).map fun (player, packets) =>
    ⟨player, packets.foldl Windows.receive .blank, player.data.level⟩

/-- The handler of an operation. -/
def handle (s : Equipped) : Op → Except Equipped.Stop (Equipped × List S2C)
  | .insertItem localId met index num => s.insertItem specialty db localId met index num
  | .trashItem localId => .ok (s.trashItem localId)
  | .updateItemIid localId iid => .ok (s.updateItemIid localId iid, [])
  | .putOn localId found => s.onPutOnItem specialty localId found
  | .putOff localId found => s.onPutOffItem specialty localId found
  | .updateProperty stats => (s.onUpdateProperty stats).mapError .character
  | .skillUp index => (s.onSkillUp skills index).mapError .character
  | .learnSkill index => (s.onLearnSkill skills index).mapError .character
  | .updateExp amount => (s.updateExp amount).mapError .character
  | .live x y z curHp curMp =>
    .ok ({ s with skilled := { s.skilled with
      player := { s.skilled.player with x, y, z, curHp, curMp } } }, [])

def step (w : Watched) (op : Op) : Except Equipped.Stop Watched :=
  (handle skills specialty db w.player op).map w.tell

end Watched

end Bango.Characters
