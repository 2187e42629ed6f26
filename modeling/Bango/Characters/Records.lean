import Bango.Network.Typed

set_option autoImplicit false

/-! # The records of a character

What the game server and the DB server tell each other about the properties, the skills and the items
of a player: the packed structs, what one server writes, and how the other one reads it. Only what
goes over the link is here; which rows the DB server changes then is the subject of the items. -/

namespace Bango.Characters

open Bango.Lib Bango.Network

/-! ## Packed structs -/

/-- `FUSEINFO`. -/
structure FuseInfo where
  level : UInt8
  meele : UInt16
  magic : UInt16
  defense : UInt16
  absorb : UInt16
  dodge : UInt8
  hit : UInt8
  hp : UInt8
  mp : UInt8
  stat : Vector UInt8 5
deriving DecidableEq

instance : Packed FuseInfo :=
  .of
    (fun f => (f.level, f.meele, f.magic, f.defense, f.absorb, f.dodge, f.hit, f.hp, f.mp, f.stat))
    (fun (level, meele, magic, defense, absorb, dodge, hit, hp, mp, stat) =>
      { level, meele, magic, defense, absorb, dodge, hit, hp, mp, stat })
    fun _ => rfl

/-- `ITEMINFO`. -/
structure ItemInfo where
  index : UInt16
  iid : Int32
  itemPrefix : UInt8
  info : UInt32
  num : UInt32
  maxEnd : UInt8
  curEnd : UInt8
  setGem : UInt8
  xAttack : UInt8
  xMagic : UInt8
  xDefense : UInt8
  xHit : UInt8
  xDodge : UInt8
  protectNum : UInt16
  weaponLevel : UInt8
  correctionAddNum : UInt8
  unknown1 : UInt8
  remainingSeconds : UInt8
  remainingMinutes : UInt8
  remainingHours : UInt32
  fuseInfo : FuseInfo
  shot : UInt8
  perforation : UInt16
  gongA : UInt32
  gongB : UInt32
deriving DecidableEq

instance : Packed ItemInfo :=
  .of
    (fun i => (i.index, i.iid, i.itemPrefix, i.info, i.num, i.maxEnd, i.curEnd, i.setGem, i.xAttack,
      i.xMagic, i.xDefense, i.xHit, i.xDodge, i.protectNum, i.weaponLevel, i.correctionAddNum,
      i.unknown1, i.remainingSeconds, i.remainingMinutes, i.remainingHours, i.fuseInfo, i.shot,
      i.perforation, i.gongA, i.gongB))
    (fun (index, iid, itemPrefix, info, num, maxEnd, curEnd, setGem, xAttack, xMagic, xDefense, xHit,
        xDodge, protectNum, weaponLevel, correctionAddNum, unknown1, remainingSeconds,
        remainingMinutes, remainingHours, fuseInfo, shot, perforation, gongA, gongB) =>
      { index, iid, itemPrefix, info, num, maxEnd, curEnd, setGem, xAttack, xMagic, xDefense, xHit,
        xDodge, protectNum, weaponLevel, correctionAddNum, unknown1, remainingSeconds,
        remainingMinutes, remainingHours, fuseInfo, shot, perforation, gongA, gongB })
    fun _ => rfl

example : Packed.size ItemInfo = 63 := rfl

/-- `PLAYERINFO`. -/
structure PlayerInfo where
  accountId : Int32
  playerId : Int32
  playerClass : UInt8
  job : UInt8
  level : UInt8
  map : UInt8
  strength : UInt16
  health : UInt16
  inteligence : UInt16
  wisdom : UInt16
  dexterity : UInt16
  curHp : UInt32
  curMp : UInt32
  exp : UInt64
  puPoint : UInt16
  suPoint : UInt16
  contribute : UInt16
  rage : UInt32
  z : Int32
  face : UInt8
  hair : UInt8
deriving DecidableEq

instance : Packed PlayerInfo :=
  .of
    (fun i => (i.accountId, i.playerId, i.playerClass, i.job, i.level, i.map, i.strength, i.health,
      i.inteligence, i.wisdom, i.dexterity, i.curHp, i.curMp, i.exp, i.puPoint, i.suPoint,
      i.contribute, i.rage, i.z, i.face, i.hair))
    (fun (accountId, playerId, playerClass, job, level, map, strength, health, inteligence, wisdom,
        dexterity, curHp, curMp, exp, puPoint, suPoint, contribute, rage, z, face, hair) =>
      { accountId, playerId, playerClass, job, level, map, strength, health, inteligence, wisdom,
        dexterity, curHp, curMp, exp, puPoint, suPoint, contribute, rage, z, face, hair })
    fun _ => rfl

example : Packed.size PlayerInfo = 54 := rfl

/-! ## Types of packets -/

/-- `S2D_UPDATEPROPERTY`. -/
def s2dUpdateProperty : UInt8 := 10

/-- `S2D_INSERTITEM`. -/
def s2dInsertItem : UInt8 := 12

/-- `S2D_SAVEALLPROPERTY`. -/
def s2dSaveAllProperty : UInt8 := 14

/-- `S2D_SKILLUP`. -/
def s2dSkillUp : UInt8 := 18

/-- `S2D_LEARNSKILL`. -/
def s2dLearnSkill : UInt8 := 19

/-- `D2S_LOADPLAYER`. -/
def d2sLoadPlayer : UInt8 := 5

/-- `D2S_LOADITEMS`. -/
def d2sLoadItems : UInt8 := 7

/-! ## The game server writes -/

/-- A `Player`, as far as it is saved and loaded. -/
structure Player where
  uid : UInt32
  data : PlayerInfo
  name : List UInt8
  x : Int32
  y : Int32
  z : Int32
  map : UInt8
  curHp : UInt32
  curMp : UInt32
deriving DecidableEq

namespace Player

variable (player : Player) (memory : Memory)

/-- What `SaveAllProperty` writes. -/
def saveAllProperty : Packet :=
  (Packet.ofType memory s2dSaveAllProperty).pushes
    [encode player.data.playerId, encode player.data.level, encode player.x, encode player.y,
      encode player.z, encode player.data.contribute, encode player.curHp, encode player.curMp,
      encode player.data.exp, encode player.data.puPoint, encode player.data.suPoint,
      encode player.data.rage]

/-- What `OnUpdateProperty` writes when the points have been distributed: "dwwwwww". -/
def onUpdateProperty : Except PushFault Packet :=
  Packet.ofFormat memory s2dUpdateProperty
    [.d player.data.playerId.toUInt32, .w player.data.strength, .w player.data.health,
      .w player.data.inteligence, .w player.data.wisdom, .w player.data.dexterity,
      .w player.data.puPoint]

/-- What `OnSkillUp` writes when the skill has got its new level: "dbbw". -/
def onSkillUp (index level : UInt8) : Except PushFault Packet :=
  Packet.ofFormat memory s2dSkillUp
    [.d player.data.playerId.toUInt32, .b index, .b level, .w (player.data.suPoint - 1)]

/-- What `OnLearnSkill` writes when the skill has been added: "dbw". -/
def onLearnSkill (index : UInt8) : Except PushFault Packet :=
  Packet.ofFormat memory s2dLearnSkill
    [.d player.data.playerId.toUInt32, .b index, .w (player.data.suPoint - 1)]

/-- What `InsertItem` writes about an item that has been created. -/
def insertItem (info : ItemInfo) (localId : UInt32) : Packet :=
  (Packet.ofType memory s2dInsertItem).pushes
    [encode info, encode player.data.playerId, encode player.uid, encode localId]

end Player

/-! ## The DB server reads -/

namespace DatabaseManager

/-- What `SaveAllProperty` reads, and puts into the row of the player. -/
structure SaveAllProperty where
  pid : Int32
  level : UInt8
  x : Int32
  y : Int32
  z : Int32
  contribute : UInt16
  curHp : UInt32
  curMp : UInt32
  exp : UInt64
  puPoint : UInt16
  suPoint : UInt16
  rage : UInt32
deriving DecidableEq

def saveAllProperty : Pops SaveAllProperty := do
  let pid ← .get Int32
  let level ← .get UInt8
  let x ← .get Int32
  let y ← .get Int32
  let z ← .get Int32
  let contribute ← .get UInt16
  let curHp ← .get UInt32
  let curMp ← .get UInt32
  let exp ← .get UInt64
  let puPoint ← .get UInt16
  let suPoint ← .get UInt16
  let rage ← .get UInt32
  return { pid, level, x, y, z, contribute, curHp, curMp, exp, puPoint, suPoint, rage }

/-- What `UpdateProperty` puts into the row of the player. -/
structure UpdateProperty where
  pid : Int32
  strength : UInt16
  health : UInt16
  inteligence : UInt16
  wisdom : UInt16
  dexterity : UInt16
  puPoint : UInt16
deriving DecidableEq

/-- The five properties are read into an array, and taken from it by `P_STR` to `P_DEX`. -/
def updateProperty : Pops UpdateProperty := do
  let pid ← .get Int32
  let stat0 ← .get UInt16
  let stat1 ← .get UInt16
  let stat2 ← .get UInt16
  let stat3 ← .get UInt16
  let stat4 ← .get UInt16
  let stats : Vector UInt16 5 := #v[stat0, stat1, stat2, stat3, stat4]
  let puPoint ← .get UInt16
  return {
    pid, puPoint, strength := stats[0], health := stats[1], inteligence := stats[2]
    wisdom := stats[3], dexterity := stats[4] }

/-- What `UpgradeSkill` reads. -/
structure UpgradeSkill where
  idPlayer : UInt32
  index : UInt8
  level : UInt8
  skillPoints : UInt16
deriving DecidableEq

def upgradeSkill : Pops UpgradeSkill := do
  let idPlayer ← .get UInt32
  let index ← .get UInt8
  let level ← .get UInt8
  let skillPoints ← .get UInt16
  return { idPlayer, index, level, skillPoints }

/-- What `LearnSkill` reads. -/
structure LearnSkill where
  idPlayer : UInt32
  index : UInt8
  skillPoints : UInt16
deriving DecidableEq

def learnSkill : Pops LearnSkill := do
  let idPlayer ← .get UInt32
  let index ← .get UInt8
  let skillPoints ← .get UInt16
  return { idPlayer, index, skillPoints }

/-- What `InsertItem` reads. -/
structure InsertItem where
  info : ItemInfo
  idplayer : Int32
  id : UInt32
  localId : UInt32
deriving DecidableEq

def insertItem : Pops InsertItem := do
  let info ← .get ItemInfo
  let idplayer ← .get Int32
  let id ← .get UInt32
  let localId ← .get UInt32
  return { info, idplayer, id, localId }

end DatabaseManager

/-! ## The DB server writes -/

/-- A row of the table `player`, as `LoadPlayer` gets its columns. -/
structure PlayerRow where
  playerClass : Int32
  job : Int32
  level : Int32
  map : Int32
  strength : Int32
  health : Int32
  inteligence : Int32
  wisdom : Int32
  dexterity : Int32
  curHp : Int32
  curMp : Int32
  exp : Int64
  puPoint : Int32
  suPoint : Int32
  contribute : Int32
  anger : Int32
  z : Int32
  face : Int32
  hair : Int32
  name : List UInt8
  x : Int32
  y : Int32
  /-- A name has at most 30 characters of at most 4 bytes. -/
  name_le : name.length ≤ 120

namespace DatabaseManager

/-- `push<char>` of an `int`. -/
def char (v : Int32) : List UInt8 := encode v.toUInt32.toUInt8

/-- `push<unsigned short>` of an `int`. -/
def unsignedShort (v : Int32) : List UInt8 := encode v.toUInt32.toUInt16

/-- `push<unsigned int>` of an `int`. -/
def unsignedInt (v : Int32) : List UInt8 := encode v.toUInt32

/-- `push<unsigned long>` of a `long long`. -/
def unsignedLong (v : Int64) : List UInt8 := encode v.toUInt64

/-- What `LoadPlayer` pushes before the name. -/
def fields (id : UInt32) (idaccount idplayer : Int32) (row : PlayerRow) : List (List UInt8) :=
  [encode id, char 0, encode idaccount, encode idplayer, char row.playerClass, char row.job,
    char row.level, char row.map, unsignedShort row.strength, unsignedShort row.health,
    unsignedShort row.inteligence, unsignedShort row.wisdom, unsignedShort row.dexterity,
    unsignedInt row.curHp, unsignedInt row.curMp, unsignedLong row.exp, unsignedShort row.puPoint,
    unsignedShort row.suPoint, unsignedShort row.contribute, unsignedInt row.anger, encode row.z,
    char row.face, char row.hair]

/-- `LoadPlayer`, up to the items and the skills. -/
def loadPlayer (memory : Memory) (id : UInt32) (idaccount idplayer : Int32) :
    Option PlayerRow → Except PushFault Packet
  | none => Packet.ofFormat memory d2sLoadPlayer [.d id, .b 1]
  | some row => do
    let out := (Packet.ofType memory d2sLoadPlayer).pushes (fields id idaccount idplayer row)
    let out ← out.pushStr row.name
    return out.pushes [encode row.x, encode row.y]

end DatabaseManager

/-- A row of the table `item`, as `LoadItems` gets its columns. -/
structure ItemRow where
  iditem : Int32
  index : Int32
  num : Int32
  info : Int32
  itemPrefix : Int32
  curend : Int32
  xattack : Int32
  xmagic : Int32
  xdefense : Int32
  xhit : Int32
  xdodge : Int32
  explosiveblow : Int32
  fusion : Int32
  fmeele : Int32
  fmagic : Int32
  fdefense : Int32
  fabsorb : Int32
  fevasion : Int32
  fhit : Int32
  fhp : Int32
  fmp : Int32
  fstr : Int32
  fhth : Int32
  fint : Int32
  fwis : Int32
  fdex : Int32
  shot : Int32
  perforation : Int32
  gongleft : Int32
  gongright : Int32
deriving DecidableEq

/-- The record that `LoadItems` makes of a row. What the table does not have stays 0. -/
def ItemRow.itemInfo (row : ItemRow) : ItemInfo where
  index := row.index.toUInt32.toUInt16
  iid := row.iditem
  itemPrefix := row.itemPrefix.toUInt32.toUInt8
  info := row.info.toUInt32
  num := row.num.toUInt32
  maxEnd := 0
  curEnd := row.curend.toUInt32.toUInt8
  setGem := 0
  xAttack := row.xattack.toUInt32.toUInt8
  xMagic := row.xmagic.toUInt32.toUInt8
  xDefense := row.xdefense.toUInt32.toUInt8
  xHit := row.xhit.toUInt32.toUInt8
  xDodge := row.xdodge.toUInt32.toUInt8
  protectNum := 0
  weaponLevel := row.explosiveblow.toUInt32.toUInt8
  correctionAddNum := 0
  unknown1 := 0
  remainingSeconds := 0
  remainingMinutes := 0
  remainingHours := 0
  fuseInfo :=
    { level := row.fusion.toUInt32.toUInt8
      meele := row.fmeele.toUInt32.toUInt16
      magic := row.fmagic.toUInt32.toUInt16
      defense := row.fdefense.toUInt32.toUInt16
      absorb := row.fabsorb.toUInt32.toUInt16
      dodge := row.fevasion.toUInt32.toUInt8
      hit := row.fhit.toUInt32.toUInt8
      hp := row.fhp.toUInt32.toUInt8
      mp := row.fmp.toUInt32.toUInt8
      stat := #v[row.fstr, row.fhth, row.fint, row.fwis, row.fdex].map fun v => v.toUInt32.toUInt8 }
  shot := row.shot.toUInt32.toUInt8
  perforation := row.perforation.toUInt32.toUInt16
  gongA := row.gongleft.toUInt32
  gongB := row.gongright.toUInt32

/-- `LoadItems`, for the rows of the player. -/
def DatabaseManager.loadItems (memory memory' : Memory) (id : UInt32) (rows : List ItemRow) :
    Except PushFault Packet :=
  let items := (Packet.new memory).pushes (rows.map fun row => encode row.itemInfo)
  let itemCount := UInt16.ofNat rows.length
  ((Packet.ofType memory' d2sLoadItems).pushes [encode id, encode itemCount]).merge items

/-! ## The game server reads -/

/-- `Player::OnLoadPlayer`. -/
def Player.onLoadPlayer (player : Player) : Pops Player := do
  let data ← .get PlayerInfo
  let name ← .str
  let x ← .get Int32
  let y ← .get Int32
  return { player with
    data, name, x, y, z := data.z, map := data.map, curHp := data.curHp, curMp := data.curMp }

/-- `DBListener::OnLoadPlayer`, for one of the sessions. -/
def DBListener.onLoadPlayer (user : Player) : Pops Player := do
  let uid ← .get UInt32
  let answer ← .get Int8
  if user.uid = uid then
    if answer ≠ 0 then return user
    else user.onLoadPlayer
  else return user

/-- The loop of `Player::OnLoadItems`. -/
def Player.popItems : Nat → Pops (List ItemInfo)
  | 0 => return []
  | n + 1 => do
    let info ← .get ItemInfo
    let others ← popItems n
    return info :: others

/-- `Player::OnLoadItems`: the records that are inserted into the inventory. -/
def Player.onLoadItems : Pops (List ItemInfo) := do
  let count ← .get UInt16
  popItems count.toNat

/-- `DBListener::OnLoadItems`, for one of the sessions. -/
def DBListener.onLoadItems (user : Player) : Pops (List ItemInfo) := do
  let uid ← .get UInt32
  if user.uid = uid then Player.onLoadItems else return []

end Bango.Characters
